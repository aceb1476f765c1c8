import Flowchart.Proofs.Rename.Completeness

/-!
Where a label stands that a pass hits. Whichever the place, blanks alone are between the label and
the start of its line or an arrow, and between the label and the end of its line, brackets, an arrow
or a caption. A label at a place is a whole operand of its line.
-/
namespace Flowchart

open Place (Label Loose)
open Text (Blanks)

/-! ### The context of a place -/

namespace Place

variable {place : Place} {atStart : Bool} {text lead trail after : Text}

/-- What may stand in front of an operand on its line. -/
def openers : List Char := ['<', '>']

/-- What may stand behind an operand on its line. -/
def closers : List Char := ['[', '<', '>', ':']

theorem mem_openers_of_isArrow {c : Char} (arrow : isArrow c = true) : c ∈ openers := by
  rcases isArrow_iff.mp arrow with rfl | rfl <;> decide

theorem blanks_of_mem_startCuts (member : (lead, after) ∈ if atStart then blankCuts text else []) :
    atStart = true ∧ Blanks lead := by
  cases atStart with
  | false => contradiction
  | true => exact ⟨rfl, blanks_of_mem_blankCuts member⟩

/-- Blanks lead up to a label from the start of a line, or an arrow does. -/
theorem leads_cases (known : place ∈ inOrder) (member : (lead, after) ∈ place.leads atStart text) :
    (atStart = true ∧ Blanks lead) ∨
      ∃ above c gap, lead = above ++ c :: gap ∧ c ∈ openers ∧ Blanks gap := by
  have order : place = declaration ∨ place = leftOperand ∨ place = rightOperand := by
    simpa [inOrder] using known
  rcases order with rfl | rfl | rfl
  · exact .inl (blanks_of_mem_startCuts member)
  · rcases List.mem_append.mp member with start | arrow
    · exact .inl (blanks_of_mem_startCuts start)
    · split at arrow
      · split at arrow
        · rename_i marked
          obtain ⟨cut, found, same⟩ := List.mem_map.mp arrow
          obtain ⟨rfl, rfl⟩ := Prod.mk.inj same
          exact .inr ⟨[], _, _, rfl, mem_openers_of_isArrow marked,
            blanks_of_mem_blankCuts (List.mem_filter.mp found).1⟩
        · contradiction
      · contradiction
  · simp only [rightOperand] at member
    split at member
    · split at member
      · rename_i marked
        obtain ⟨cut, found, same⟩ := List.mem_map.mp member
        obtain ⟨rfl, rfl⟩ := Prod.mk.inj same
        exact .inr ⟨_, _, _, rfl, mem_openers_of_isArrow marked, blanks_of_mem_blankCuts found⟩
      · contradiction
    · contradiction

/-- Behind blanks, a mark follows a label, or the end of the line. -/
theorem trail_cases (known : place ∈ inOrder) (ends : place.trail? text = some (trail, after)) :
    (∃ gap c more, trail = gap ++ c :: more ∧ c ∈ closers ∧ Blanks gap) ∨
      Blanks trail ∧ (after = [] ∨ after.head? = some '\n') := by
  have marked {mark : Char} (close : mark ∈ closers)
      (ends : markOrEnd? mark text = some (trail, after)) :
      (∃ gap c more, trail = gap ++ c :: more ∧ c ∈ closers ∧ Blanks gap) ∨
        Blanks trail ∧ (after = [] ∨ after.head? = some '\n') := by
    refine (markOrEnd?_eq_some ends).imp_left ?_
    rintro ⟨gap, rfl, blanks⟩
    exact ⟨gap, mark, [], rfl, close, blanks⟩
  have order : place = declaration ∨ place = leftOperand ∨ place = rightOperand := by
    simpa [inOrder] using known
  rcases order with rfl | rfl | rfl
  · exact marked (by decide) ends
  · obtain ⟨_, gap, arrow, space, rfl, blanks, _⟩ := arrow?_eq_some ends
    refine .inl ⟨gap, arrow.mark, space, rfl, ?_, blanks⟩
    cases arrow <;> decide
  · exact marked (by decide) ends

end Place

namespace Skeleton

variable {α : Type} {spelling : α → Label} {pieces front back rest : List (Piece α)}
  {place : Place} {label old new : Label} {atStart : Bool} {lead trail : Text} {k : α}
  {hits : List α} {marks : List Char}

/-- Nothing but blanks stands behind one of the marks, or behind the start. -/
def Opens (marks : List Char) (front : List (Piece α)) : Prop :=
  ∃ above gap, front = above ++ loose gap ∧ Blanks gap ∧
    (above = [] ∨ ∃ c ∈ marks, above.getLast? = some (.loose c))

/-- Nothing but blanks stands in front of one of the marks, or of the end. -/
def Closes (marks : List Char) (back : List (Piece α)) : Prop :=
  ∃ gap below, back = loose gap ++ below ∧ Blanks gap ∧
    (below = [] ∨ ∃ c ∈ marks, below.head? = some (.loose c))

/-- A part without a line feed opens by itself. -/
theorem Opens.of_append {line : List (Piece α)} (opens : Opens ('\n' :: marks) (front ++ line))
    (single : .loose '\n' ∉ line) : Opens marks line := by
  obtain ⟨above, gap, parts, blanks, starts⟩ := opens
  rcases Cut.append_cases parts with ⟨mid, rfl, rfl⟩ | ⟨mid, _, _, inner⟩
  · refine ⟨mid, gap, rfl, blanks, ?_⟩
    by_cases empty : mid = []
    · exact .inl empty
    · obtain ⟨c, known, last⟩ :=
        starts.resolve_left (List.append_ne_nil_of_right_ne_nil front empty)
      rw [List.getLast?_append_of_ne_nil _ empty] at last
      have member : .loose c ∈ mid := List.mem_of_getLast? last
      rcases List.mem_cons.mp known with rfl | mark
      · exact absurd (List.mem_append_left _ member) single
      · exact .inr ⟨c, mark, last⟩
  · obtain ⟨first, later, rfl, _, rfl⟩ := loose_eq_append inner
    exact ⟨[], later, rfl, fun c member => blanks c (List.mem_append_right first member), .inl rfl⟩

/-- A part without a line feed closes by itself. -/
theorem Closes.of_append {line : List (Piece α)} (closes : Closes ('\n' :: marks) (line ++ back))
    (single : .loose '\n' ∉ line) : Closes marks line := by
  obtain ⟨gap, below, parts, blanks, ends⟩ := closes
  rcases Cut.append_cases parts with ⟨mid, inner, _⟩ | ⟨mid, filled, rfl, rfl⟩
  · obtain ⟨first, later, rfl, rfl, _⟩ := loose_eq_append inner
    exact ⟨first, [], (List.append_nil _).symm,
      fun c member => blanks c (List.mem_append_left later member), .inl rfl⟩
  · refine ⟨gap, mid, rfl, blanks, .inr ?_⟩
    obtain ⟨c, known, first⟩ := ends.resolve_left (List.append_ne_nil_of_left_ne_nil filled back)
    rw [List.head?_append_of_ne_nil _ filled] at first
    have member : .loose c ∈ mid := List.mem_of_head? first
    rcases List.mem_cons.mp known with rfl | mark
    · exact absurd (List.mem_append_right _ member) single
    · exact ⟨c, mark, first⟩

theorem startsLine_eq_true {before : Bool} (starts : startsLine before front = true) :
    front = [] ∨ front.getLast? = some (.loose '\n') := by
  rcases List.eq_nil_or_concat' front with rfl | ⟨more, last, rfl⟩
  · exact .inl rfl
  · rw [startsLine_append] at starts
    cases last with
    | loose c =>
      have feed : c = '\n' := eq_of_beq starts
      exact .inr (feed ▸ List.getLast?_concat)
    | label a => contradiction

/-- The context of a label that stands at a place. -/
theorem Stands.context {behind : List (Piece α)} (spelling : α → Label)
    (stands : Stands place (startsLine true front) behind lead k trail rest)
    (known : place ∈ Place.inOrder) :
    Opens ('\n' :: Place.openers) (front ++ loose lead) ∧
      Closes ('\n' :: Place.closers) (loose trail ++ rest) := by
  constructor
  · rcases Place.leads_cases known (stands.lead spelling) with
      ⟨starts, blanks⟩ | ⟨above, c, gap, rfl, mark, blanks⟩
    · exact ⟨front, lead, rfl, blanks, (startsLine_eq_true starts).imp_right fun last =>
        ⟨'\n', List.mem_cons_self, last⟩⟩
    · refine ⟨front ++ loose (above ++ [c]), gap, ?_, blanks, .inr ⟨c, ?_, ?_⟩⟩
      · rw [List.append_cons, loose_append, List.append_assoc]
      · exact List.mem_cons_of_mem _ mark
      · rw [loose_append, ← List.append_assoc]
        exact List.getLast?_concat
  · rcases Place.trail_cases known (stands.trail spelling) with
      ⟨gap, c, more, rfl, mark, blanks⟩ | ⟨blanks, ends⟩
    · exact ⟨gap, loose (c :: more) ++ rest, by simp, blanks,
        .inr ⟨c, List.mem_cons_of_mem _ mark, rfl⟩⟩
    · refine ⟨trail, rest, rfl, blanks, ?_⟩
      cases rest with
      | nil => exact .inl rfl
      | cons piece more =>
        refine .inr ⟨'\n', List.mem_cons_self, ?_⟩
        cases piece with
        | loose c =>
          have feed : c = '\n' := Option.some.inj (ends.resolve_left (List.cons_ne_nil _ _))
          rw [feed]
          rfl
        | label a =>
          obtain ⟨c, text, starts⟩ := List.exists_cons_of_ne_nil (spelling a).nonempty
          rw [spell_label_cons, starts] at ends
          have feed : c = '\n' := Option.some.inj (ends.resolve_left (List.cons_ne_nil _ _))
          exact absurd feed (Label.ne_feed (spelling a) (starts ▸ List.mem_cons_self))

/-! ### What the passes hit -/

theorem Scan.stands_of_mem (scan : Scan place label spelling atStart pieces hits)
    (member : k ∈ hits) :
    ∃ front behind lead trail rest, pieces = front ++ behind ∧
      Stands place (startsLine atStart front) behind lead k trail rest := by
  induction scan with
  | nil => contradiction
  | @hit atStart pieces more start ends j hits stands _ _ ih =>
    rcases List.mem_cons.mp member with rfl | later
    · exact ⟨[], pieces, start, ends, more, rfl, stands⟩
    · obtain ⟨front, behind, lead, trail, rest, rfl, found⟩ := ih later
      refine ⟨loose start ++ .label j :: (loose ends ++ front), behind, lead, trail, rest, ?_, ?_⟩
      · rw [stands.split]
        simp
      · rw [startsLine_append, startsLine, startsLine_append,
          startsLine_spell false spelling (loose ends), spell_loose]
        exact found
  | @skip atStart piece more hits _ _ ih =>
    obtain ⟨front, behind, lead, trail, rest, rfl, found⟩ := ih member
    refine ⟨piece :: front, behind, lead, trail, rest, rfl, ?_⟩
    rw [← List.singleton_append, startsLine_append]
    exact found

/-- A label that a pass hits is a whole operand. -/
theorem Scan.context (scan : Scan place label spelling true pieces hits)
    (known : place ∈ Place.inOrder) (member : k ∈ hits) :
    ∃ front back, pieces = front ++ .label k :: back ∧ Opens ('\n' :: Place.openers) front ∧
      Closes ('\n' :: Place.closers) back := by
  obtain ⟨front, behind, lead, trail, rest, rfl, stands⟩ := scan.stands_of_mem member
  obtain ⟨opens, closes⟩ := stands.context spelling known
  exact ⟨front ++ loose lead, loose trail ++ rest, by rw [stands.split, List.append_assoc], opens,
    closes⟩

end Skeleton

end Flowchart
