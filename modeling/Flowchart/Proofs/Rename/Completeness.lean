import Flowchart.Proofs.Rename.Operands
import Flowchart.Proofs.Rename.Remains
import Mathlib.Data.List.Infix

/-!
What renaming reaches. No declaration of the old label is left, and no last operand of a chain or
operand in front of a caption. An operand that another arrow follows is left only where it stands
right behind the old label and one arrow: the pass over left operands takes the arrow and the blanks
together with the first of two such operands, and goes on behind them.
-/
namespace Flowchart

open Text (Blanks)

namespace Place

variable {text lead gap trail after above below : Text} {label old new : Label} {c mark : Char}

/-! ### What the places take -/

theorem mem_blankCuts (blanks : Blanks lead) (after : Text) :
    (lead, after) ∈ blankCuts (lead ++ after) := by
  induction lead with
  | nil =>
    cases after with
    | nil => exact List.mem_singleton.mpr rfl
    | cons c rest =>
      rw [List.nil_append, blankCuts]
      split
      · exact List.mem_append_right _ (List.mem_singleton.mpr rfl)
      · exact List.mem_singleton.mpr rfl
  | cons c lead ih =>
    obtain ⟨here, later⟩ := List.forall_mem_cons.mp blanks
    rw [List.cons_append, blankCuts, if_pos here]
    exact List.mem_append_left _ (List.mem_map_of_mem (ih later))

theorem not_blank_of_isArrow (arrow : isArrow c = true) : Text.isBlank c = false := by
  rcases isArrow_iff.mp arrow with rfl | rfl <;> decide

theorem isArrow_mark (arrow : Arrow) : isArrow arrow.mark = true := by
  cases arrow <;> rfl

theorem exists_arrow (arrow : isArrow c = true) : ∃ arrow : Arrow, c = arrow.mark := by
  rcases isArrow_iff.mp arrow with rfl | rfl
  · exact ⟨.forward, rfl⟩
  · exact ⟨.backward, rfl⟩

theorem arrow?_isSome (blanks : Blanks gap) (arrow : isArrow c = true) (rest : Text) :
    (arrow? (gap ++ c :: rest)).isSome := by
  rw [arrow?, blanks.trimLeft_append,
    Text.trimLeft_cons_of_visible rest (not_blank_of_isArrow arrow)]
  simp only [arrow, if_true]
  rfl

theorem lineEnd?_isSome (blanks : Blanks gap) (ends : below = [] ∨ below.head? = some '\n') :
    (lineEnd? (gap ++ below)).isSome := by
  rw [lineEnd?]
  split
  · rfl
  · rename_i visible
    rw [List.find?_isSome]
    rcases ends with rfl | feed
    · rw [blanks.trimLeft_append] at visible
      exact absurd rfl visible
    · exact ⟨(gap, below), mem_blankCuts blanks below, beq_of_eq feed⟩

theorem markOrEnd?_isSome (visible : Text.isBlank mark = false) (blanks : Blanks gap)
    (ends : below = [] ∨ below.head? = some '\n' ∨ below.head? = some mark) :
    (markOrEnd? mark (gap ++ below)).isSome := by
  rw [markOrEnd?]
  rcases or_assoc.mpr ends with last | marked
  · have found := lineEnd?_isSome blanks last
    split
    · split
      · rfl
      · exact found
    · exact found
  · obtain ⟨rest, rfl⟩ := List.head?_eq_some_iff.mp marked
    rw [blanks.trimLeft_append, Text.trimLeft_cons_of_visible rest visible]
    simp only [if_true]
    rfl

theorem markOrEnd?_eq_some (found : markOrEnd? mark text = some (trail, after)) :
    (∃ gap, trail = gap ++ [mark] ∧ Blanks gap) ∨
      Blanks trail ∧ (after = [] ∨ after.head? = some '\n') := by
  have last (found : lineEnd? text = some (trail, after)) :
      Blanks trail ∧ (after = [] ∨ after.head? = some '\n') := by
    refine ⟨blanks_of_lineEnd? found, ?_⟩
    rw [lineEnd?] at found
    split at found
    · exact .inl (Prod.mk.inj (Option.some.inj found)).2.symm
    · exact .inr (eq_of_beq (List.find?_some found :))
  rw [markOrEnd?] at found
  split at found
  · split at found
    · obtain ⟨rfl, rfl⟩ := Prod.mk.inj (Option.some.inj found)
      exact .inl ⟨Text.indent text, rfl, Text.blanks_indent text⟩
    · exact .inr (last found)
  · exact .inr (last found)

/-- An arrow takes all the blanks around it. -/
theorem arrow?_eq_some (found : arrow? text = some (trail, after)) :
    Text.trimLeft after = after ∧ ∃ (gap : Text) (arrow : Arrow) (space : Text),
      trail = gap ++ arrow.mark :: space ∧ Blanks gap ∧ Blanks space := by
  rw [arrow?] at found
  split at found
  · rename_i c behind shown
    split at found
    · rename_i arrowed
      obtain ⟨rfl, rfl⟩ := Prod.mk.inj (Option.some.inj found)
      obtain ⟨arrow, rfl⟩ := exists_arrow arrowed
      exact ⟨List.dropWhile_idempotent _ _, _, arrow, _, rfl, Text.blanks_indent text,
        Text.blanks_indent behind⟩
    · contradiction
  · contradiction

/-! ### What is left at the places -/

/-- Somewhere the label stands twice in a row, both times with an arrow behind it. -/
def doubled (label source : Text) : Bool :=
  source.tails.any fun rest =>
    (do
      let behind ← Text.dropStart? label rest
      let (_, next) ← arrow? behind
      let last ← Text.dropStart? label next
      arrow? last).isSome

theorem doubled_of_parts {label source front behind last : Text}
    (parts : source = front ++ (label ++ behind))
    (first : arrow? behind = some (gap, label ++ last)) (second : (arrow? last).isSome) :
    doubled label source = true := by
  refine List.any_eq_true.mpr ⟨label ++ behind, ?_, ?_⟩
  · exact parts ▸ (List.mem_tails _ _).mpr (List.suffix_append front _)
  · simp [Text.dropStart?_append, first, second]

variable {source : Text} (different : old ≠ new)

include different

theorem Occurs.not_declaration (blanks : Blanks lead) (single : '\n' ∉ lead) :
    ¬declaration.Occurs old.text (rename source old.text new.text) above lead below := by
  intro occurs
  obtain ⟨front, _, mid, ending, later, trail, rest, rfl, shown, -, -, taken, -⟩ :=
    occurs.behind_another different List.mem_cons_self
  rcases markOrEnd?_eq_some taken with ⟨gap, marked, -⟩ | ⟨-, empty | feed⟩
  · -- The bracket would lead up to the label.
    have last := congrArg List.getLast? marked
    rw [List.getLast?_append_of_ne_nil _ shown, List.getLast?_concat] at last
    have blank := blanks '[' (List.mem_append_left _ (List.mem_of_getLast? last))
    contradiction
  · exact old.nonempty (List.append_eq_nil_iff.mp (List.append_eq_nil_iff.mp empty).2).1
  · cases later with
    | nil =>
      obtain ⟨c, more, starts⟩ := List.exists_cons_of_ne_nil old.nonempty
      rw [List.nil_append, starts] at feed
      have same : c = '\n' := Option.some.inj feed
      exact old.free '\n' (by decide) (starts ▸ same ▸ List.mem_cons_self)
    | cons d later =>
      have same : d = '\n' := Option.some.inj feed
      exact single (List.mem_append_right _ (same ▸ List.mem_cons_self))

theorem Occurs.not_rightOperand (arrow : isArrow c = true) :
    ¬rightOperand.Occurs old.text (rename source old.text new.text) above (c :: gap) below := by
  intro occurs
  obtain ⟨front, _, mid, ending, later, trail, rest, parts, shown, -, -, taken, -⟩ :=
    occurs.behind_another different (by simp [inOrder])
  obtain ⟨d, ending, rfl⟩ := List.exists_cons_of_ne_nil shown
  have same : c = d := (List.cons.inj parts).1
  have member : c ∈ mid ++ d :: ending := same ▸ List.mem_append_right mid List.mem_cons_self
  have visible := not_blank_of_isArrow arrow
  have unmarked : c ≠ ':' := by
    rintro rfl
    contradiction
  -- The pass takes blanks and colons behind a label, but no arrow.
  rcases markOrEnd?_eq_some taken with ⟨spaces, marked, blanks⟩ | ⟨blanks, -⟩
  · rw [marked] at member
    rcases List.mem_append.mp member with before | last
    · rw [blanks c before] at visible
      contradiction
    · exact unmarked (List.mem_singleton.mp last)
  · rw [blanks c member] at visible
    contradiction

/-- A left operand is left behind the new label and an arrow, where the source is doubled. -/
theorem Occurs.behind_renamed
    (occurs : leftOperand.Occurs old.text (rename source old.text new.text) above lead below)
    (blanks : Blanks lead ∨ ∃ c gap, lead = c :: gap ∧ Blanks gap) :
    (above ++ lead).EndsWithOperand new.text ∧ doubled old.text source = true := by
  obtain ⟨front, before, mid, ending, later, trail, rest, parts, shown, rfl, split, taken, ends⟩ :=
    occurs.behind_another different (by simp [inOrder])
  obtain ⟨trimmed, gap, arrow, space, same, gapBlank, spaceBlank⟩ := arrow?_eq_some taken
  have laterBlank : Blanks later := by
    intro d member
    rcases blanks with blanks | ⟨c, gap, rfl, blanks⟩
    · exact blanks d (parts ▸ List.mem_append_right ending member)
    · obtain ⟨e, ending, rfl⟩ := List.exists_cons_of_ne_nil shown
      exact blanks d ((List.cons.inj parts).2 ▸ List.mem_append_right ending member)
  have empty : later = [] := by
    rw [laterBlank.trimLeft_append] at trimmed
    have longest : (Text.trimLeft (old.text ++ (trail ++ rest))).length ≤
        (old.text ++ (trail ++ rest)).length := (List.dropWhile_sublist Text.isBlank).length_le
    rw [trimmed, List.length_append] at longest
    exact List.eq_nil_of_length_eq_zero (by omega)
  rw [empty, List.append_nil] at parts
  constructor
  · refine ⟨before, gap, arrow, space, ?_, gapBlank, spaceBlank⟩
    calc
      (before ++ (new.text ++ mid)) ++ lead = before ++ (new.text ++ (mid ++ ending)) := by
        simp [parts]
      _ = before ++ (new.text ++ (gap ++ arrow.mark :: space)) := by rw [same]
  · rw [empty, List.nil_append] at taken
    exact doubled_of_parts split taken (Option.isSome_iff_exists.mpr ⟨_, ends⟩)

end Place

/-! ### From a line to its source -/

namespace Line.Setting

open Place

variable {line source label lead tail front back text : Text}

theorem source_eq (setting : Line.Setting line source) (parts : line = text) :
    source = setting.above ++ (setting.lead ++ (text ++ (setting.tail ++ setting.below))) :=
  setting.parts.trans (congrArg (fun shown =>
    setting.above ++ (setting.lead ++ (shown ++ (setting.tail ++ setting.below)))) parts)

theorem startsLine_above (setting : Line.Setting line source) :
    Place.startsLine true setting.above = true := by
  rcases setting.opens with empty | ⟨front, joined⟩
  · rw [empty]
    rfl
  · rw [joined, Place.startsLine, List.getLast?_concat]
    rfl

theorem cut_above (setting : Line.Setting line source) (lead : Text) :
    setting.above = [] ∨ (∃ front mark, setting.above = front ++ [mark] ∧ mark ∈ marks) ∨
      ∃ mark rest, lead = mark :: rest ∧ mark ∈ marks := by
  rcases setting.opens with empty | ⟨front, joined⟩
  · exact .inl empty
  · exact .inr (.inl ⟨front, '\n', joined, by decide⟩)

/-- What follows on the line, with the rest of the source behind it. -/
theorem markOrEnd?_isSome {mark : Char} (setting : Line.Setting line source)
    (visible : Text.isBlank mark = false) (blanks : Blanks tail)
    (ends : back = [] ∨ back.head? = some '\n' ∨ back.head? = some mark) :
    (markOrEnd? mark (tail ++ (back ++ (setting.tail ++ setting.below)))).isSome := by
  cases back with
  | nil =>
    rw [List.nil_append, ← List.append_assoc]
    refine Place.markOrEnd?_isSome visible (blanks.append setting.tailBlank) ?_
    exact setting.closes.imp_right .inl
  | cons c back => exact Place.markOrEnd?_isSome visible blanks (.inr (ends.resolve_left nofun))

theorem occurs_declaration (setting : Line.Setting line source)
    (parts : line = lead ++ (label ++ (tail ++ back))) (blanks : Blanks lead) (also : Blanks tail)
    (ends : back = [] ∨ back.head? = some '\n' ∨ back.head? = some '[') :
    declaration.Occurs label source setting.above (setting.lead ++ lead)
      (tail ++ (back ++ (setting.tail ++ setting.below))) where
  parts := by simpa using setting.source_eq parts
  cut := setting.cut_above _
  leads := by
    rw [setting.startsLine_above]
    exact mem_blankCuts (setting.leadBlank.append blanks) _
  ends := setting.markOrEnd?_isSome (by decide) also ends

/-- An operand in front of an arrow: the first one, or one behind another arrow. -/
theorem occurs_leftOperand (setting : Line.Setting line source)
    (opens : front = [] ∨ front.EndsWithArrow)
    (parts : line = front ++ (lead ++ (label ++ (tail ++ back)))) (blanks : Blanks lead)
    (also : Blanks tail) (closes : back.StartsWithArrow) :
    ∃ above start below, leftOperand.Occurs label source above start below ∧
      (Blanks start ∨ ∃ c gap, start = c :: gap ∧ Blanks gap) ∧
      above ++ start = setting.above ++ (setting.lead ++ (front ++ lead)) := by
  obtain ⟨gap, arrow, after, rfl, gapBlank⟩ := closes
  have ends : (arrow? (tail ++ (gap ++ arrow.mark :: (after ++
      (setting.tail ++ setting.below))))).isSome := by
    rw [← List.append_assoc]
    exact arrow?_isSome (also.append gapBlank) (isArrow_mark arrow) _
  rcases opens with rfl | ⟨before, other, space, rfl, spaceBlank, spaced⟩
  · refine ⟨setting.above, setting.lead ++ lead, _,
      ⟨?_, setting.cut_above _, ?_, ends⟩, .inl (setting.leadBlank.append blanks), rfl⟩
    · simpa using setting.source_eq parts
    · rw [setting.startsLine_above]
      exact List.mem_append_left _ (mem_blankCuts (setting.leadBlank.append blanks) _)
  · have shown : space ++ lead ≠ [] := List.append_ne_nil_of_left_ne_nil spaced lead
    refine ⟨setting.above ++ (setting.lead ++ before), other.mark :: (space ++ lead), _,
      ⟨?_, .inr (.inr ⟨_, _, rfl, mark_of_isArrow (isArrow_mark other)⟩), ?_, ends⟩,
      .inr ⟨_, _, rfl, spaceBlank.append blanks⟩, by simp⟩
    · simpa using setting.source_eq parts
    · refine List.mem_append_right _ ?_
      rw [List.cons_append]
      simp only [isArrow_mark other, if_true]
      refine List.mem_map.mpr ⟨(space ++ lead, _), List.mem_filter.mpr ⟨?_, ?_⟩, rfl⟩
      · exact mem_blankCuts (spaceBlank.append blanks) _
      · exact decide_eq_true shown

/-- An operand behind an arrow that a caption or the end of the line follows. -/
theorem occurs_rightOperand (setting : Line.Setting line source) (opens : front.EndsWithArrow)
    (parts : line = front ++ (lead ++ (label ++ (tail ++ back)))) (blanks : Blanks lead)
    (also : Blanks tail) (closes : back = [] ∨ back.head? = some ':') :
    ∃ above c gap below, isArrow c = true ∧
      rightOperand.Occurs label source above (c :: gap) below := by
  obtain ⟨before, arrow, space, rfl, spaceBlank, -⟩ := opens
  have ends : (markOrEnd? ':' (tail ++ (back ++ (setting.tail ++ setting.below)))).isSome :=
    setting.markOrEnd?_isSome (by decide) also (closes.imp_right .inr)
  have arrowed := isArrow_mark arrow
  refine ⟨setting.above ++ (setting.lead ++ before), arrow.mark, space ++ lead, _, arrowed, ?_,
    .inr (.inr ⟨_, _, rfl, mark_of_isArrow arrowed⟩), ?_, ends⟩
  · simpa using setting.source_eq parts
  · have visible := not_blank_of_isArrow arrowed
    simp only [rightOperand, List.cons_append, Text.trimLeft_cons_of_visible _ visible, arrowed,
      if_true]
    refine List.mem_map.mpr ⟨(space ++ lead, _), mem_blankCuts (spaceBlank.append blanks) _, ?_⟩
    simp [Text.indent, visible]

end Line.Setting

/-! ### From a link to its line -/

namespace Link.Setting

variable {link : Link} {line label : Text}

/-- Where a left operand stands. -/
theorem left_parts (setting : link.Setting line) :
    ∃ lead tail back, line = setting.front ++ (lead ++ (link.left ++ (tail ++ back))) ∧
      Blanks lead ∧ Blanks tail ∧ back.StartsWithArrow := by
  obtain ⟨lead, tail, split, leadBlank, tailBlank⟩ := Text.exists_blanks setting.left
  rw [setting.leftTrim] at split
  refine ⟨lead, tail, _, ?_, leadBlank, tailBlank,
    setting.gap, link.arrow, setting.space ++ (setting.right ++ setting.back), rfl,
    setting.gapBlank⟩
  simpa [split] using setting.parts

/-- Where a right operand stands. -/
theorem right_parts (setting : link.Setting line) :
    ∃ front lead tail, line = front ++ (lead ++ (link.right ++ (tail ++ setting.back))) ∧
      Blanks lead ∧ Blanks tail ∧ front.EndsWithArrow := by
  obtain ⟨lead, tail, split, leadBlank, tailBlank⟩ := Text.exists_blanks setting.right
  rw [setting.rightTrim] at split
  refine ⟨setting.front ++ (setting.left ++ (setting.gap ++ link.arrow.mark :: setting.space)),
    lead, tail, ?_, leadBlank, tailBlank, setting.front ++ (setting.left ++ setting.gap),
    link.arrow, setting.space, by simp, setting.spaceBlank, setting.spaced⟩
  simpa [split] using setting.parts

end Link.Setting

section Renamed

open Place (Label)

variable {source line : Text} {old new : Label} (different : old ≠ new)
  (member : line ∈ Line.ofSource (rename source old.text new.text))

include different member

theorem not_written_of_rename : Declaration.written? line ≠ some old.text := by
  intro found
  obtain ⟨setting⟩ := Line.exists_setting member
  obtain ⟨lead, gap, behind, parts, leadBlank, gapBlank, ends⟩ :=
    Declaration.exists_of_written? found
  have single : '\n' ∉ setting.lead ++ lead := by
    intro feed
    rcases List.mem_append.mp feed with outer | inner
    · exact setting.leadSingle outer
    · exact (Line.clean_of_mem_ofSource member).2 (parts ▸ List.mem_append_left _ inner)
  exact Place.Occurs.not_declaration different (setting.leadBlank.append leadBlank) single
    (setting.occurs_declaration parts leadBlank gapBlank ends)

/-- An operand that a caption or the end of the line follows. -/
theorem not_ending_of_rename {front lead tail back : Text} (opens : front.EndsWithArrow)
    (blanks : Blanks lead) (also : Blanks tail) (closes : back = [] ∨ back.head? = some ':') :
    line ≠ front ++ (lead ++ (old.text ++ (tail ++ back))) := by
  intro parts
  obtain ⟨setting⟩ := Line.exists_setting member
  obtain ⟨above, c, gap, below, arrow, occurs⟩ :=
    setting.occurs_rightOperand opens parts blanks also closes
  exact occurs.not_rightOperand different arrow

omit member in
/-- An operand that an arrow follows. -/
theorem behind_renamed_of_rename {front lead tail back : Text}
    (setting : Line.Setting line (rename source old.text new.text))
    (opens : front = [] ∨ front.EndsWithArrow)
    (parts : line = front ++ (lead ++ (old.text ++ (tail ++ back)))) (blanks : Blanks lead)
    (also : Blanks tail) (closes : back.StartsWithArrow) :
    (setting.above ++ (setting.lead ++ (front ++ lead))).EndsWithOperand new.text ∧
      Place.doubled old.text source = true := by
  obtain ⟨above, start, below, occurs, shape, same⟩ :=
    setting.occurs_leftOperand opens parts blanks also closes
  exact same ▸ occurs.behind_renamed different shape

theorem not_captioned_of_rename {link : Link} (inside : link ∈ Chain.links line)
    (captioned : (Chain.splitLabel link.right).2 ≠ none) :
    (Chain.splitLabel link.right).1 ≠ old.text := by
  intro same
  obtain ⟨setting⟩ := Chain.exists_setting inside
  obtain ⟨front, lead, tail, parts, leadBlank, tailBlank, opens⟩ := setting.right_parts
  obtain ⟨inner, gap, rest, split, innerBlank, gapBlank⟩ :=
    Chain.splitLabel_of_captioned captioned
  rw [same] at split
  have absent : line ≠ front ++ ((lead ++ inner) ++
      (old.text ++ (gap ++ ':' :: (rest ++ (tail ++ setting.back))))) :=
    not_ending_of_rename different member opens (leadBlank.append innerBlank) gapBlank (.inr rfl)
  exact absent (by simpa [split] using parts)

theorem not_last_of_rename {link : Link} (last : (Chain.links line).getLast? = some link) :
    (Chain.splitLabel link.right).1 ≠ old.text := by
  by_cases bare : (Chain.splitLabel link.right).2 = none
  · rw [Chain.splitLabel_of_unlabelled bare]
    intro same
    obtain ⟨setting, ends⟩ := Chain.exists_setting_of_last last
    obtain ⟨front, lead, tail, parts, leadBlank, tailBlank, opens⟩ := setting.right_parts
    rw [same] at parts
    exact not_ending_of_rename different member opens leadBlank tailBlank (.inl ends) parts
  · exact not_captioned_of_rename different member (List.mem_of_getLast? last) bare

omit member in
/-- A left operand stands right behind the new label and an arrow. -/
theorem behind_renamed_of_left {link : Link} (same : link.left = old.text)
    (inLine : link.Setting line) (inSource : Line.Setting line (rename source old.text new.text)) :
    (inSource.above ++ (inSource.lead ++ inLine.front)).EndsWithOperand new.text ∧
      Place.doubled old.text source = true := by
  obtain ⟨lead, tail, back, parts, leadBlank, tailBlank, closes⟩ := inLine.left_parts
  rw [same] at parts
  obtain ⟨ends, twice⟩ := behind_renamed_of_rename different inSource inLine.opens parts leadBlank
    tailBlank closes
  exact ⟨Text.EndsWithOperand.of_append (by simpa using ends) leadBlank, twice⟩

theorem doubled_of_left {link : Link} (inside : link ∈ Chain.links line)
    (same : link.left = old.text) : Place.doubled old.text source = true := by
  obtain ⟨inLine⟩ := Chain.exists_setting inside
  obtain ⟨inSource⟩ := Line.exists_setting member
  exact (behind_renamed_of_left different same inLine inSource).2

theorem doubled_of_right {link : Link} (inside : link ∈ Chain.links line)
    (same : (Chain.splitLabel link.right).1 = old.text) :
    Place.doubled old.text source = true := by
  by_cases bare : (Chain.splitLabel link.right).2 = none
  · rw [Chain.splitLabel_of_unlabelled bare] at same
    obtain ⟨setting⟩ := Chain.exists_setting inside
    obtain ⟨front, lead, tail, parts, leadBlank, tailBlank, opens⟩ := setting.right_parts
    rw [same] at parts
    rcases setting.closes with ends | closes
    · have absent := not_ending_of_rename different member opens leadBlank tailBlank (.inl ends)
      exact absurd parts absent
    · obtain ⟨inSource⟩ := Line.exists_setting member
      exact (behind_renamed_of_rename different inSource (.inr opens) parts leadBlank tailBlank
        closes).2
  · exact absurd same (not_captioned_of_rename different member inside bare)

end Renamed

/-- The label of a node that a line declares is written there, perhaps in quotes. -/
theorem Declaration.exists_written {line : Text} {node : Declaration}
    (declared : node? line = some node) :
    ∃ label, written? line = some label ∧ node.label = Text.stripQuotes label := by
  have both := label_node? line
  rw [declared, Option.map_some] at both
  obtain ⟨label, found, same⟩ := Option.map_eq_some_iff.mp both.symm
  exact ⟨label, found, same.symm⟩

/-- Renaming to another label leaves no declaration of the old one, whatever the line is and
whatever node it declares, and no last operand of a chain or operand with a caption. An operand in
front of an arrow is left only right behind the new label and an arrow, and only if the source has
the old label twice in a row, both times with an arrow behind it. -/
theorem rename_leaves_doubled {source line : Text} {old new : Place.Label} (different : old ≠ new)
    (member : line ∈ Line.ofSource (rename source old.text new.text)) :
    Declaration.written? line ≠ some old.text ∧
      (∀ node, Declaration.node? line = some node → ∃ label, label ≠ old.text ∧
        Declaration.written? line = some label ∧ node.label = Text.stripQuotes label) ∧
      ∀ link ∈ Chain.links line,
        ((Chain.splitLabel link.right).2 ≠ none ∨ (Chain.links line).getLast? = some link →
          (Chain.splitLabel link.right).1 ≠ old.text) ∧
        (link.left = old.text → ∀ (inLine : link.Setting line)
          (inSource : Line.Setting line (rename source old.text new.text)),
            (inSource.above ++ (inSource.lead ++ inLine.front)).EndsWithOperand new.text) ∧
        (Place.doubled old.text source = false →
          link.left ≠ old.text ∧ (Chain.splitLabel link.right).1 ≠ old.text) := by
  have unwritten := not_written_of_rename different member
  refine ⟨unwritten, fun node declared => ?_, fun link inside => ⟨?_, ?_, ?_⟩⟩
  · obtain ⟨label, found, same⟩ := Declaration.exists_written declared
    exact ⟨label, fun old => unwritten (old ▸ found), found, same⟩
  · intro ends
    rcases ends with captioned | last
    · exact not_captioned_of_rename different member inside captioned
    · exact not_last_of_rename different member last
  · intro same inLine inSource
    exact (behind_renamed_of_left different same inLine inSource).1
  · intro apart
    constructor
    · intro same
      rw [doubled_of_left different member inside same] at apart
      contradiction
    · intro same
      rw [doubled_of_right different member inside same] at apart
      contradiction

/-- The label is declared, and comes first, last and in the middle of chains. -/
theorem rename_leaves_doubled_chain :
    rename "A [shape: circle]\nX > A > Y\nA > X > A: A".toList ['A'] ['B'] =
        "B [shape: circle]\nX > B > Y\nB > X > B: A".toList ∧
      ∀ link ∈ Chain.links "X > B > Y".toList, link.left ≠ ['A'] := by
  have renamed : rename "A [shape: circle]\nX > A > Y\nA > X > A: A".toList ['A'] ['B'] =
      "B [shape: circle]\nX > B > Y\nB > X > B: A".toList := by cbv
  let old : Place.Label := ⟨['A'], by decide, rfl, by decide⟩
  let new : Place.Label := ⟨['B'], by decide, rfl, by decide⟩
  have different : old ≠ new := by decide
  have member : "X > B > Y".toList ∈ Line.ofSource
      (rename "A [shape: circle]\nX > A > Y\nA > X > A: A".toList old.text new.text) := by
    rw [renamed]
    decide +kernel
  refine ⟨renamed, fun link inside => ?_⟩
  exact (((rename_leaves_doubled different member).2.2 link inside).2.2 (by decide +kernel)).1

/-- Of three operands in a row the middle one stays. -/
theorem middle_operand_left :
    rename "A > A > A".toList ['A'] ['B'] = "B > A > B".toList ∧
      Line.kind "B > A > B".toList = .relationship ∧
      (Chain.links "B > A > B".toList).map (·.left) = [['B'], ['A']] := by
  refine ⟨by cbv, by decide, by cbv⟩

end Flowchart
