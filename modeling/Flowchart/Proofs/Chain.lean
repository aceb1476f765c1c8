import Flowchart.Chain
import Flowchart.Proofs.Declaration
import Flowchart.Proofs.Ident

/-!
What an edge takes from its line. The ends are identifiers of labels; the label of an edge, if there
is one, shows something, because it stands at the end of a trimmed operand.
-/
namespace Flowchart

/-- The source comes first. -/
def Edge.ends (edge : Edge) : List Ident := [edge.source, edge.target]

/-- What every edge satisfies that stands on one line. -/
structure Edge.Sound (edge : Edge) : Prop where
  source : ∃ label, edge.source = Ident.ofLabel label
  target : ∃ label, edge.target = Ident.ofLabel label
  label : ∀ text, edge.label = some text → text ≠ [] ∧ Text.Trimmed text ∧ '\n' ∉ text

theorem Edge.Sound.source_spelled {edge : Edge} (sound : edge.Sound) :
    Ident.Spelled edge.source := by
  obtain ⟨label, same⟩ := sound.source
  exact same ▸ Ident.ofLabel_spelled label

theorem Edge.Sound.target_spelled {edge : Edge} (sound : edge.Sound) :
    Ident.Spelled edge.target := by
  obtain ⟨label, same⟩ := sound.target
  exact same ▸ Ident.ofLabel_spelled label

theorem Link.label_edge (link : Link) : link.edge.label = (Chain.splitLabel link.right).2 := by
  rw [edge]
  cases link.arrow <;> rfl

namespace Chain

theorem mark_of_ofMark? {c : Char} {arrow : Arrow} (known : Arrow.ofMark? c = some arrow) :
    c = arrow.mark := by
  rw [Arrow.ofMark?] at known
  split at known
  · rename_i right
    rw [right, ← Option.some.inj known]
    rfl
  · split at known
    · rename_i left
      rw [left, ← Option.some.inj known]
      rfl
    · contradiction

theorem indent_ne_nil {text : Text} (starts : startsBlank text = true) : Text.indent text ≠ [] := by
  cases text with
  | nil => contradiction
  | cons c rest =>
    have blank : Text.isBlank c = true := starts
    simp [Text.indent, blank]

theorem trimLeft_of_visible {text : Text} (visible : startsBlank text = false) :
    Text.trimLeft text = text := by
  cases text with
  | nil => rfl
  | cons c rest => exact Text.trimLeft_cons_of_visible rest visible

theorem startsBlank_trimLeft (text : Text) : startsBlank (Text.trimLeft text) = false := by
  induction text with
  | nil => rfl
  | cons c rest ih =>
    by_cases blank : Text.isBlank c = true
    · rwa [Text.trimLeft_cons_of_blank rest blank]
    · have visible := Bool.eq_false_iff.mpr blank
      rwa [Text.trimLeft_cons_of_visible rest visible]

theorem startsBlank_of_trimmed {text : Text} (trimmed : Text.Trimmed text) :
    startsBlank text = false := by
  cases text with
  | nil => rfl
  | cons c rest => exact trimmed.head_visible

theorem startsBlank_append {gap : Text} (blanks : Text.Blanks gap) (gapped : gap ≠ [])
    (rest : Text) : startsBlank (gap ++ rest) = true := by
  obtain ⟨c, more, rfl⟩ := List.exists_cons_of_ne_nil gapped
  exact blanks c List.mem_cons_self

/-- An arrow with blanks on both sides at the start of a text, and what stands behind all of
them. -/
def Spaced (text : Text) (arrow : Arrow) (after : Text) : Prop :=
  ∃ gap space, text = gap ++ arrow.mark :: (space ++ after) ∧ Text.Blanks gap ∧
    Text.Blanks space ∧ gap ≠ [] ∧ space ≠ [] ∧ startsBlank after = false

theorem spaced_of_arrow? {text after : Text} {arrow : Arrow}
    (found : arrow? text = some (arrow, after)) : Spaced text arrow after := by
  rw [arrow?] at found
  split at found
  · rename_i starts
    split at found
    · rename_i c behind shown
      split at found
      · rename_i goesOn
        obtain ⟨_, known, same⟩ := Option.map_eq_some_iff.mp found
        obtain ⟨rfl, rfl⟩ := Prod.mk.inj same
        refine ⟨Text.indent text, Text.indent behind, ?_, Text.blanks_indent text,
          Text.blanks_indent behind, indent_ne_nil starts, indent_ne_nil goesOn,
          startsBlank_trimLeft behind⟩
        rw [Text.indent_append_trimLeft, ← mark_of_ofMark? known, ← shown,
          Text.indent_append_trimLeft]
      · contradiction
    · contradiction
  · contradiction

theorem suffix_of_arrow? {text after : Text} {arrow : Arrow}
    (found : arrow? text = some (arrow, after)) : after <:+ text := by
  obtain ⟨gap, space, joined, _⟩ := spaced_of_arrow? found
  exact ⟨gap ++ arrow.mark :: space, by simp [joined]⟩

theorem isBlank_mark (arrow : Arrow) : Text.isBlank arrow.mark = false := by
  cases arrow <;> decide

/-- An arrow takes all of the blanks around it. -/
theorem arrow?_eq_some_iff {text after : Text} {arrow : Arrow} :
    arrow? text = some (arrow, after) ↔ Spaced text arrow after := by
  refine ⟨spaced_of_arrow?, ?_⟩
  rintro ⟨gap, space, rfl, gapBlank, spaceBlank, gapped, spaced, visible⟩
  have shown : Text.trimLeft (gap ++ arrow.mark :: (space ++ after)) =
      arrow.mark :: (space ++ after) := by
    rw [gapBlank.trimLeft_append, Text.trimLeft_cons_of_visible _ (isBlank_mark arrow)]
  have known : Arrow.ofMark? arrow.mark = some arrow := by cases arrow <;> rfl
  have rest : Text.trimLeft (space ++ after) = after := by
    rw [spaceBlank.trimLeft_append, trimLeft_of_visible visible]
  simp [arrow?, startsBlank_append gapBlank gapped, shown, startsBlank_append spaceBlank spaced,
    known, rest]

theorem mem_of_mem_split {c : Char} (text : Text) :
    (c ∈ (split text).1 → c ∈ text) ∧
      ∀ entry ∈ (split text).2, c ∈ entry.2 → c ∈ text := by
  fun_induction split text with
  | case1 text arrow after found shorter operand more shown ih =>
    rw [shown] at ih
    have back : c ∈ after → c ∈ text := fun member => (suffix_of_arrow? found).subset member
    refine ⟨fun member => absurd member List.not_mem_nil, ?_⟩
    intro entry member inside
    rcases List.mem_cons.mp member with rfl | later
    · exact back (ih.1 inside)
    · exact back (ih.2 entry later inside)
  | case2 =>
    refine ⟨id, ?_⟩
    intro entry member
    exact absurd member List.not_mem_nil
  | case3 first rest plain operand more shown ih =>
    rw [shown] at ih
    constructor
    · intro member
      rcases List.mem_cons.mp member with rfl | later
      · exact List.mem_cons_self
      · exact List.mem_cons_of_mem first (ih.1 later)
    · intro entry member inside
      exact List.mem_cons_of_mem first (ih.2 entry member inside)

theorem right_of_mem_pair {left : Text} {more : List (Arrow × Text)} {link : Link}
    (member : link ∈ pair left more) : ∃ entry ∈ more, link.right = entry.2 := by
  induction more generalizing left with
  | nil => exact absurd member List.not_mem_nil
  | cons entry rest ih =>
    rcases List.mem_cons.mp member with rfl | later
    · exact ⟨entry, List.mem_cons_self, rfl⟩
    · obtain ⟨found, known, same⟩ := ih later
      exact ⟨found, List.mem_cons_of_mem entry known, same⟩

theorem right_of_mem_links {line : Text} {link : Link} (member : link ∈ links line) :
    Text.Trimmed link.right ∧ ∀ c ∈ link.right, c ∈ line := by
  obtain ⟨entry, known, same⟩ := right_of_mem_pair member
  obtain ⟨raw, present, rfl⟩ := List.mem_map.mp known
  rw [same]
  refine ⟨Text.trimmed_trim raw.2, ?_⟩
  intro c inside
  exact (mem_of_mem_split line).2 raw present (Text.mem_of_mem_trim inside)

theorem labelAfter?_eq_some {rest label : Text} (found : labelAfter? rest = some label) :
    rest ≠ [] ∧ label = Text.trim rest := by
  have visible : rest ≠ [] := by
    rintro rfl
    simp [labelAfter?, Text.lines] at found
  dsimp only [labelAfter?] at found
  generalize (if rest.getLast? = some '\n' then rest.dropLast else rest) = shown at found
  split at found
  · contradiction
  · split at found
    · exact ⟨visible, (Option.some.inj found).symm⟩
    · contradiction

/-- An operand with a label comes apart at a colon behind its first character. -/
theorem parts_of_splitLabel {operand label : Text} (found : (splitLabel operand).2 = some label) :
    ∃ front rest, operand = front ++ ':' :: rest ∧ front ≠ [] ∧ rest ≠ [] ∧
      (splitLabel operand).1 = Text.trim front ∧ label = Text.trim rest := by
  unfold splitLabel at found ⊢
  split at found
  · rename_i front text cut
    obtain ⟨behind, joined, colon, nonempty⟩ := Text.append_of_upTo? cut
    unfold colonLabel? at colon
    split at colon
    · rename_i rest
      obtain ⟨shown, same⟩ := labelAfter?_eq_some colon
      exact ⟨front, rest, joined, nonempty, shown, rfl, (Option.some.inj found).symm.trans same⟩
    · contradiction
  · contradiction

theorem splitLabel_of_unlabelled {operand : Text} (plain : (splitLabel operand).2 = none) :
    (splitLabel operand).1 = operand := by
  rw [splitLabel] at plain ⊢
  split at plain
  · contradiction
  · rfl

theorem label_of_splitLabel {operand label : Text} (trimmed : Text.Trimmed operand)
    (found : (splitLabel operand).2 = some label) :
    label ≠ [] ∧ Text.Trimmed label ∧ ∀ c ∈ label, c ∈ operand := by
  obtain ⟨front, rest, joined, -, nonempty, -, rfl⟩ := parts_of_splitLabel found
  rw [List.append_cons] at joined
  refine ⟨(joined ▸ trimmed).trim_end_ne_nil nonempty, Text.trimmed_trim rest, ?_⟩
  intro c member
  exact joined ▸ List.mem_append_right _ (Text.mem_of_mem_trim member)

theorem edge_sound {line : Text} (single : '\n' ∉ line) {link : Link}
    (member : link ∈ links line) : link.edge.Sound := by
  obtain ⟨trimmed, within⟩ := right_of_mem_links member
  have label : ∀ text, (splitLabel link.right).2 = some text →
      text ≠ [] ∧ Text.Trimmed text ∧ '\n' ∉ text := by
    intro text found
    obtain ⟨nonempty, clean, inside⟩ := label_of_splitLabel trimmed found
    exact ⟨nonempty, clean, fun feed => single (within '\n' (inside '\n' feed))⟩
  unfold Link.edge
  cases link.arrow with
  | forward => exact ⟨⟨_, rfl⟩, ⟨_, rfl⟩, label⟩
  | backward => exact ⟨⟨_, rfl⟩, ⟨_, rfl⟩, label⟩

/-! ### Lines put together -/

theorem arrow?_eq_none {text : Text}
    (other : ∀ c ∈ (Text.trimLeft text).head?, Arrow.ofMark? c = none) : arrow? text = none := by
  rw [arrow?]
  split
  · cases shown : Text.trimLeft text with
    | nil => rfl
    | cons c after => simp [other c (by simp [shown])]
  · rfl

theorem ofMark?_eq_none {c : Char} {text : Text} (left : '<' ∉ text) (right : '>' ∉ text)
    (member : c ∈ text) : Arrow.ofMark? c = none := by
  have notRight : c ≠ '>' := ne_of_mem_of_not_mem member right
  have notLeft : c ≠ '<' := ne_of_mem_of_not_mem member left
  simp [Arrow.ofMark?, notRight, notLeft]

theorem split_of_arrow {text after : Text} {arrow : Arrow}
    (found : arrow? text = some (arrow, after)) :
    split text = ([], (arrow, (split after).1) :: (split after).2) := by
  rw [split]
  split
  · rename_i other behind same
    obtain ⟨rfl, rfl⟩ := Prod.mk.inj (Option.some.inj (found.symm.trans same))
    rfl
  · rename_i none
    rw [found] at none
    contradiction

theorem split_cons {c : Char} {rest : Text} (plain : arrow? (c :: rest) = none) :
    split (c :: rest) = (c :: (split rest).1, (split rest).2) := by
  rw [split]
  split
  · rename_i found
    rw [plain] at found
    contradiction
  · rfl

/-- The operand begins with a text in which no arrow begins. -/
theorem split_append {front rest : Text}
    (plain : ∀ start back, start ++ back = front → back ≠ [] → arrow? (back ++ rest) = none) :
    split (front ++ rest) = (front ++ (split rest).1, (split rest).2) := by
  induction front with
  | nil => rfl
  | cons c more ih =>
    have behind := ih fun start back joined shown =>
      plain (c :: start) back (by rw [← joined]; rfl) shown
    have here : arrow? (c :: (more ++ rest)) = none :=
      plain [] (c :: more) rfl (List.cons_ne_nil c more)
    rw [List.cons_append, split_cons here, behind]
    rfl

theorem split_of_free {text : Text} (free : ∀ c ∈ text, Arrow.ofMark? c = none) :
    split text = (text, []) := by
  have nothing : split [] = ([], []) := by
    rw [split]
    rfl
  have whole : split (text ++ []) = (text ++ (split []).1, (split []).2) := by
    apply split_append
    intro start back joined _
    apply arrow?_eq_none
    intro c found
    have inside : c ∈ Text.trimLeft (back ++ []) := List.mem_of_mem_head? found
    have member : c ∈ back := by
      simpa using (List.dropWhile_sublist Text.isBlank).subset inside
    exact free c (joined ▸ List.mem_append_right start member)
  simpa [nothing] using whole

theorem arrow?_mark (arrow : Arrow) {back : Text} (visible : startsBlank back = false) :
    arrow? (' ' :: arrow.mark :: ' ' :: back) = some (arrow, back) :=
  arrow?_eq_some_iff.mpr ⟨[' '], [' '], rfl, Text.blanks_space, Text.blanks_space,
    List.cons_ne_nil _ _, List.cons_ne_nil _ _, visible⟩

/-- A line with one arrow between two operands without arrows. -/
theorem links_of_arrow {front back : Text} (arrow : Arrow) (trimmed : Text.Trimmed front)
    (also : Text.Trimmed back) (free : ∀ c ∈ front, Arrow.ofMark? c = none)
    (alsoFree : ∀ c ∈ back, Arrow.ofMark? c = none) :
    links (front ++ ' ' :: arrow.mark :: ' ' :: back) = [⟨front, arrow, back⟩] := by
  have behind : split (' ' :: arrow.mark :: ' ' :: back) = ([], [(arrow, back)]) := by
    rw [split_of_arrow (arrow?_mark arrow (startsBlank_of_trimmed also)), split_of_free alsoFree]
  have whole : split (front ++ ' ' :: arrow.mark :: ' ' :: back) = (front, [(arrow, back)]) := by
    rw [split_append, behind, List.append_nil]
    intro start part joined shown
    -- Behind the blanks stands a character of the front, which is no arrow.
    obtain ⟨c, member, more, visible⟩ := (joined.symm ▸ trimmed).trimLeft_append shown
      (' ' :: arrow.mark :: ' ' :: back)
    apply arrow?_eq_none
    intro other found
    have same : c = other := by simpa [visible] using found
    exact same ▸ free c (joined ▸ List.mem_append_right start member)
  have frontEnds : Text.trim front = front := trimmed
  have backEnds : Text.trim back = back := also
  simp [links, whole, pair, frontEnds, backEnds]

/-- Without a colon in front of something, an operand has no label. A colon at its start is part of
the name. -/
theorem splitLabel_bare {operand : Text}
    (ends : ∀ front rest, operand = front ++ ':' :: rest → front ≠ [] → rest = []) :
    splitLabel operand = (operand, none) := by
  have nothing : Text.upTo? colonLabel? operand = none := by
    apply Text.upTo?_eq_none
    intro front back joined nonempty
    unfold colonLabel?
    split
    · rename_i rest
      rw [ends front rest joined.symm nonempty]
      rfl
    · rfl
  rw [splitLabel, nothing]

theorem splitLabel_of_not_mem {operand : Text} (free : ':' ∉ operand) :
    splitLabel operand = (operand, none) := by
  apply splitLabel_bare
  rintro front rest rfl
  exact absurd (List.mem_append_right front List.mem_cons_self) free

theorem labelAfter?_of_single {rest : Text} (nonempty : rest ≠ []) (single : '\n' ∉ rest) :
    labelAfter? rest = some (Text.trim rest) := by
  have last : rest.getLast? ≠ some '\n' := fun found => single (List.mem_of_getLast? found)
  have alone : Text.lines rest = [rest] := List.splitOn_eq_singleton single
  simp [labelAfter?, last, alone, nonempty]

/-- The first colon behind the first character sets the label apart. -/
theorem splitLabel_colon {front rest : Text} (nonempty : front ≠ []) (free : ':' ∉ front.tail)
    (shown : rest ≠ []) (single : '\n' ∉ front) (alsoSingle : '\n' ∉ rest) :
    splitLabel (front ++ ':' :: rest) = (Text.trim front, some (Text.trim rest)) := by
  have accepted : colonLabel? (':' :: rest) = some (Text.trim rest) :=
    labelAfter?_of_single shown alsoSingle
  have found : Text.upTo? colonLabel? (front ++ ':' :: rest) = some (front, Text.trim rest) := by
    apply Text.upTo?_append nonempty single accepted
    intro start back joined begun visible
    obtain ⟨c, more, rfl⟩ := List.exists_cons_of_ne_nil visible
    have other : c ≠ ':' := by
      rintro rfl
      rw [← joined, List.tail_append_of_ne_nil begun] at free
      exact free (List.mem_append_right _ List.mem_cons_self)
    simp [colonLabel?, other]
  simp [splitLabel, found]

theorem splitLabel_append {name label : Text} (trimmed : Text.Trimmed name)
    (nonempty : name ≠ []) (free : ':' ∉ name) (single : '\n' ∉ name)
    (labelTrimmed : Text.Trimmed label) (labelSingle : '\n' ∉ label) :
    splitLabel (name ++ ':' :: ' ' :: label) = (name, some label) := by
  have split := splitLabel_colon nonempty (mt List.mem_of_mem_tail free)
    (List.cons_ne_nil ' ' label) single (by simp [labelSingle])
  have ends : Text.trim name = name := trimmed
  have labelEnds : Text.trim label = label := labelTrimmed
  rwa [Text.trim_cons_of_blank label (by decide), ends, labelEnds] at split

end Chain

end Flowchart
