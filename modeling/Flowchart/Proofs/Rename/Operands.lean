import Flowchart.Proofs.Cut
import Flowchart.Proofs.Line

/-!
Where labels stand in a source. A line has its source around it, an operand has its line around it:
blanks, arrows, and the ends of lines. A written label is an operand or the start of a declaration,
with nothing but blanks trimmed away.
-/
namespace Flowchart

namespace Text

/-- A piece between line feeds. -/
theorem exists_of_mem_unlines {piece : Text} {pieces : List Text} (member : piece ∈ pieces) :
    ∃ above below, unlines pieces = above ++ (piece ++ below) ∧
      (above = [] ∨ ∃ front, above = front ++ ['\n']) ∧
      (below = [] ∨ below.head? = some '\n') := by
  induction pieces with
  | nil => contradiction
  | cons first rest ih =>
    cases rest with
    | nil =>
      rw [List.mem_singleton.mp member]
      exact ⟨[], [], by simp [unlines], .inl rfl, .inl rfl⟩
    | cons next others =>
      have split : unlines (first :: next :: others) =
          first ++ ('\n' :: unlines (next :: others)) := by
        rw [unlines_cons, continued_cons]
      rcases List.mem_cons.mp member with rfl | later
      · exact ⟨[], _, split, .inl rfl, .inr rfl⟩
      · obtain ⟨above, below, parts, opens, closes⟩ := ih later
        refine ⟨first ++ '\n' :: above, below, by rw [split, parts]; simp, .inr ?_, closes⟩
        rcases opens with rfl | ⟨front, rfl⟩
        · exact ⟨first, rfl⟩
        · exact ⟨first ++ '\n' :: front, by simp⟩

end Text

open Text (Blanks)

/-- Where a line without its outer blanks stands in a source. -/
structure Line.Setting (line source : Text) where
  above : Text
  lead : Text
  tail : Text
  below : Text
  parts : source = above ++ (lead ++ (line ++ (tail ++ below)))
  opens : above = [] ∨ ∃ front, above = front ++ ['\n']
  leadBlank : Blanks lead
  leadSingle : '\n' ∉ lead
  tailBlank : Blanks tail
  closes : below = [] ∨ below.head? = some '\n'

theorem Line.exists_setting {source line : Text} (member : line ∈ Line.ofSource source) :
    Nonempty (Line.Setting line source) := by
  obtain ⟨raw, known, rfl⟩ := List.mem_map.mp member
  obtain ⟨above, below, parts, opens, closes⟩ := Text.exists_of_mem_unlines known
  obtain ⟨lead, tail, split, leadBlank, tailBlank⟩ := Text.exists_blanks raw
  rw [Text.unlines_lines] at parts
  have leadSingle : '\n' ∉ lead := by
    intro feed
    exact Text.not_mem_of_mem_lines known (split ▸ List.mem_append_left _ feed)
  refine ⟨⟨above, lead, tail, below, ?_, opens, leadBlank, leadSingle, tailBlank, closes⟩⟩
  calc
    source = above ++ (raw ++ below) := parts
    _ = above ++ ((lead ++ (Text.trim raw ++ tail)) ++ below) := by rw [← split]
    _ = above ++ (lead ++ (Text.trim raw ++ (tail ++ below))) := by simp

/-! ### Declarations -/

namespace Declaration

/-- The label of a declaration as it is written, with its quotes. -/
def written? (line : Text) : Option Text :=
  (Text.upTo? (tail? Text.atEnd) line).map fun (label, _) => Text.trim label

theorem label_node? (line : Text) :
    (node? line).map (·.label) = (written? line).map Text.stripQuotes := by
  rw [node?, read?, written?, Option.map_map, Option.map_map]
  rfl

theorem exists_of_tail? {rest : Text} {body : Option Text}
    (found : tail? Text.atEnd rest = some body) :
    ∃ gap behind, rest = gap ++ behind ∧ Blanks gap ∧
      (behind = [] ∨ behind.head? = some '\n' ∨ behind.head? = some '[') := by
  have ends (last : Text.atEnd rest = true) : ∃ gap behind, rest = gap ++ behind ∧ Blanks gap ∧
      (behind = [] ∨ behind.head? = some '\n' ∨ behind.head? = some '[') := by
    rcases Bool.or_eq_true_iff.mp last with empty | feed
    · exact ⟨[], [], eq_of_beq empty, Text.blanks_nil, .inl rfl⟩
    · exact ⟨[], ['\n'], eq_of_beq feed, Text.blanks_nil, .inr (.inl rfl)⟩
  rw [tail?] at found
  split at found
  · rename_i inner after shown
    exact ⟨Text.indent rest, _, (parts_of_bracketed? shown).1, Text.blanks_indent rest,
      .inr (.inr rfl)⟩
  · split at found
    · rename_i last
      exact ends last
    · contradiction

/-- The written label stands in front of brackets or of the end of the line. -/
theorem exists_of_written? {line label : Text} (found : written? line = some label) :
    ∃ lead gap behind, line = lead ++ (label ++ (gap ++ behind)) ∧ Blanks lead ∧ Blanks gap ∧
      (behind = [] ∨ behind.head? = some '\n' ∨ behind.head? = some '[') := by
  obtain ⟨⟨raw, body⟩, cut, rfl⟩ := Option.map_eq_some_iff.mp found
  obtain ⟨rest, joined, closed, _⟩ := Text.append_of_upTo? cut
  obtain ⟨lead, tail, split, leadBlank, tailBlank⟩ := Text.exists_blanks raw
  obtain ⟨gap, behind, rfl, gapBlank, ends⟩ := exists_of_tail? closed
  refine ⟨lead, tail ++ gap, behind, ?_, leadBlank, tailBlank.append gapBlank, ends⟩
  calc
    line = raw ++ (gap ++ behind) := joined
    _ = (lead ++ (Text.trim raw ++ tail)) ++ (gap ++ behind) := by rw [← split]
    _ = lead ++ (Text.trim raw ++ (tail ++ gap ++ behind)) := by simp

end Declaration

/-! ### Chains -/

namespace Chain

/-- A text put together from its first operand and from arrows with operands behind them. -/
inductive Chained : Text → Text → List (Arrow × Text) → Prop
  | last (operand : Text) : Chained operand operand []
  | next {first gap space rest operand : Text} {arrow : Arrow} {more : List (Arrow × Text)}
    (gapBlank : Blanks gap) (spaceBlank : Blanks space) (spaced : space ≠ [])
    (behind : Chained rest operand more) :
    Chained (first ++ (gap ++ arrow.mark :: (space ++ rest))) first ((arrow, operand) :: more)

theorem Chained.cons {text first : Text} {more : List (Arrow × Text)} (c : Char)
    (chained : Chained text first more) : Chained (c :: text) (c :: first) more := by
  cases chained with
  | last => exact .last (c :: text)
  | next gapBlank spaceBlank spaced behind =>
    rw [← List.cons_append]
    exact .next gapBlank spaceBlank spaced behind

theorem chained_split (text : Text) : Chained text (split text).1 (split text).2 := by
  fun_induction split text with
  | case1 text arrow after found shorter operand more shown ih =>
    rw [shown] at ih
    obtain ⟨gap, space, rfl, gapBlank, spaceBlank, _, spaced, -⟩ := spaced_of_arrow? found
    rw [← List.nil_append (gap ++ _)]
    exact .next gapBlank spaceBlank spaced ih
  | case2 => exact .last []
  | case3 c rest plain operand more shown ih =>
    rw [shown] at ih
    exact ih.cons c

end Chain

/-- An arrow and blanks come last. -/
def Text.EndsWithArrow (text : Text) : Prop :=
  ∃ (before : Text) (arrow : Arrow) (space : Text),
    text = before ++ arrow.mark :: space ∧ Blanks space ∧ space ≠ []

/-- An operand, an arrow and perhaps blanks come last. -/
def Text.EndsWithOperand (text operand : Text) : Prop :=
  ∃ (before gap : Text) (arrow : Arrow) (space : Text),
    text = before ++ (operand ++ (gap ++ arrow.mark :: space)) ∧ Blanks gap ∧ Blanks space

/-- The blanks at the end do not matter. -/
theorem Text.EndsWithOperand.of_append {operand text blanks : Text}
    (ends : (text ++ blanks).EndsWithOperand operand) (blank : Blanks blanks) :
    text.EndsWithOperand operand := by
  obtain ⟨before, gap, arrow, space, parts, gapBlank, spaceBlank⟩ := ends
  have joined : (before ++ (operand ++ (gap ++ [arrow.mark]))) ++ space = text ++ blanks := by
    simpa using parts.symm
  rcases Cut.append_cases joined with ⟨mid, whole, tails⟩ | ⟨mid, shown, whole, tails⟩
  · refine ⟨before, gap, arrow, mid, by simpa using whole, gapBlank, fun c member => ?_⟩
    exact spaceBlank c (tails ▸ List.mem_append_left blanks member)
  · -- The arrow would be one of the blanks.
    have last := congrArg List.getLast? whole
    rw [← List.append_assoc, ← List.append_assoc, List.getLast?_concat,
      List.getLast?_append_of_ne_nil _ shown] at last
    have member : arrow.mark ∈ mid := List.mem_of_getLast? last.symm
    have spaced := blank arrow.mark (tails ▸ List.mem_append_left space member)
    cases arrow <;> contradiction

/-- An arrow comes first, behind blanks or without. -/
def Text.StartsWithArrow (text : Text) : Prop :=
  ∃ (gap : Text) (arrow : Arrow) (after : Text), text = gap ++ arrow.mark :: after ∧ Blanks gap

/-- Where a link stands on its line. -/
structure Link.Setting (link : Link) (line : Text) where
  front : Text
  left : Text
  gap : Text
  space : Text
  right : Text
  back : Text
  parts : line = front ++ (left ++ (gap ++ link.arrow.mark :: (space ++ (right ++ back))))
  leftTrim : Text.trim left = link.left
  rightTrim : Text.trim right = link.right
  gapBlank : Blanks gap
  spaceBlank : Blanks space
  spaced : space ≠ []
  opens : front = [] ∨ front.EndsWithArrow
  closes : back = [] ∨ back.StartsWithArrow

namespace Chain

/-- The links behind a first operand. -/
def linksFrom (first : Text) (more : List (Arrow × Text)) : List Link :=
  pair (Text.trim first) (more.map fun (arrow, operand) => (arrow, Text.trim operand))

theorem exists_setting_of_chained {text first : Text} {more : List (Arrow × Text)}
    (chained : Chained text first more) {link : Link} {before later : List Link}
    (split : linksFrom first more = before ++ link :: later) :
    ∃ setting : link.Setting text, later = [] → setting.back = [] := by
  induction chained generalizing before with
  | last operand => simp [linksFrom, pair] at split
  | @next first gap space rest operand arrow more gapBlank spaceBlank spaced behind ih =>
    have shown : linksFrom first ((arrow, operand) :: more) =
        ⟨Text.trim first, arrow, Text.trim operand⟩ :: linksFrom operand more := rfl
    rw [shown] at split
    cases before with
    | nil =>
      obtain ⟨rfl, rfl⟩ := List.cons.inj split
      cases behind with
      | last =>
        exact ⟨⟨[], first, gap, space, rest, [], by simp, rfl, rfl, gapBlank, spaceBlank,
          spaced, .inl rfl, .inl rfl⟩, fun _ => rfl⟩
      | @next _ gap' space' rest' operand' arrow' more' gapBlank' _ _ _ =>
        refine ⟨⟨[], first, gap, space, operand, gap' ++ arrow'.mark :: (space' ++ rest'), rfl, rfl,
          rfl, gapBlank, spaceBlank, spaced, .inl rfl, .inr ⟨gap', arrow', _, rfl, gapBlank'⟩⟩, ?_⟩
        intro nothing
        contradiction
    | cons _ before =>
      obtain ⟨setting, last⟩ := ih (List.cons.inj split).2
      refine ⟨{ setting with
        front := first ++ (gap ++ arrow.mark :: (space ++ setting.front))
        parts := ?_, opens := .inr ?_ }, last⟩
      · have parts := congrArg (fun rest => first ++ (gap ++ arrow.mark :: (space ++ rest)))
          setting.parts
        simpa using parts
      · rcases setting.opens with empty | ⟨front, other, behind, joined, blanks, shown⟩
        · exact ⟨first ++ gap, arrow, space, by rw [empty]; simp, spaceBlank, spaced⟩
        · exact ⟨first ++ (gap ++ arrow.mark :: (space ++ front)), other, behind,
            by rw [joined]; simp, blanks, shown⟩

theorem exists_setting {line : Text} {link : Link} (member : link ∈ links line) :
    Nonempty (link.Setting line) := by
  obtain ⟨before, later, split⟩ := List.append_of_mem member
  obtain ⟨setting, _⟩ := exists_setting_of_chained (chained_split line) split
  exact ⟨setting⟩

theorem exists_setting_of_last {line : Text} {link : Link}
    (last : (links line).getLast? = some link) :
    ∃ setting : link.Setting line, setting.back = [] := by
  obtain ⟨before, split⟩ := List.getLast?_eq_some_iff.mp last
  obtain ⟨setting, ends⟩ := exists_setting_of_chained (chained_split line) split
  exact ⟨setting, ends rfl⟩

/-- What stands in front of a caption. -/
theorem splitLabel_of_captioned {operand : Text} (captioned : (splitLabel operand).2 ≠ none) :
    ∃ lead tail rest, operand = lead ++ ((splitLabel operand).1 ++ (tail ++ ':' :: rest)) ∧
      Blanks lead ∧ Blanks tail := by
  obtain ⟨label, found⟩ := Option.ne_none_iff_exists'.mp captioned
  obtain ⟨front, rest, joined, -, -, name, -⟩ := parts_of_splitLabel found
  obtain ⟨lead, tail, split, leadBlank, tailBlank⟩ := Text.exists_blanks front
  refine ⟨lead, tail, rest, ?_, leadBlank, tailBlank⟩
  calc
    operand = front ++ ':' :: rest := joined
    _ = (lead ++ (Text.trim front ++ tail)) ++ ':' :: rest := by rw [← split]
    _ = lead ++ ((splitLabel operand).1 ++ (tail ++ ':' :: rest)) := by rw [name]; simp

end Chain

end Flowchart
