import Flowchart.Text.Basic

/-!
Lists that can be taken apart in one way only: a front within a class before a rest that leaves the
class, a front without a mark before the mark, blocks that end with a mark they do not hold. Two
cuts of one list are one behind the other.
-/
namespace Flowchart.Cut

variable {α β : Type}

section Append

variable {front other back rest : List α}

/-- The front is the longest start within the class. -/
theorem append_inj_of_class {inClass : α → Bool} (inside : ∀ a ∈ front, inClass a = true)
    (otherInside : ∀ a ∈ other, inClass a = true) (outside : back.takeWhile inClass = [])
    (restOutside : rest.takeWhile inClass = []) (same : front ++ back = other ++ rest) :
    front = other ∧ back = rest := by
  have starts := congrArg (List.takeWhile inClass) same
  rw [List.takeWhile_append_of_pos inside, List.takeWhile_append_of_pos otherInside, outside,
    restOutside, List.append_nil, List.append_nil] at starts
  subst starts
  exact ⟨rfl, List.append_cancel_left same⟩

/-- Of two cuts the first one is in front of the other, or really behind it. -/
theorem append_cases (same : front ++ back = other ++ rest) :
    (∃ mid, other = front ++ mid ∧ back = mid ++ rest) ∨
      ∃ mid, mid ≠ [] ∧ front = other ++ mid ∧ rest = mid ++ back := by
  rcases List.append_eq_append_iff.mp same with ⟨mid, inner, tails⟩ | ⟨mid, inner, tails⟩
  · exact .inl ⟨mid, inner, tails⟩
  · cases mid with
    | nil => exact .inl ⟨[], by simpa using inner.symm, tails.symm⟩
    | cons a mid => exact .inr ⟨a :: mid, List.cons_ne_nil a mid, inner, tails⟩

/-- An element at a place has the elements before that place in front of it. -/
theorem getElem?_eq_some_iff_append {list : List α} {place : Nat} {a : α} :
    list[place]? = some a ↔ ∃ front back, list = front ++ a :: back ∧ front.length = place := by
  constructor
  · intro here
    obtain ⟨inside, rfl⟩ := List.getElem?_eq_some_iff.mp here
    refine ⟨list.take place, list.drop (place + 1), ?_,
      List.length_take_of_le (Nat.le_of_lt inside)⟩
    rw [← List.drop_eq_getElem_cons inside, List.take_append_drop]
  · rintro ⟨front, back, rfl, rfl⟩
    simp

variable [DecidableEq α]

theorem append_inj_of_mark {mark : α} (absent : mark ∉ front) (otherAbsent : mark ∉ other)
    (same : front ++ mark :: back = other ++ mark :: rest) : front = other ∧ back = rest := by
  have inside {part : List α} (free : mark ∉ part) : ∀ a ∈ part, decide (a ≠ mark) = true := by
    intro a member
    exact decide_eq_true (ne_of_mem_of_not_mem member free)
  have cut := append_inj_of_class (inside absent) (inside otherAbsent) (by simp) (by simp) same
  exact ⟨cut.1, (List.cons.inj cut.2).2⟩

/-- As `append_inj_of_mark`, for the last place of the mark. -/
theorem append_inj_of_last_mark {mark : α} (absent : mark ∉ back) (restAbsent : mark ∉ rest)
    (same : front ++ mark :: back = other ++ mark :: rest) : front = other ∧ back = rest := by
  have turned := congrArg List.reverse same
  simp only [List.reverse_append, List.reverse_cons, List.append_assoc, List.singleton_append]
    at turned
  have cut := append_inj_of_mark (by simpa using absent) (by simpa using restAbsent) turned
  exact ⟨List.reverse_inj.mp cut.2, List.reverse_inj.mp cut.1⟩

end Append

theorem map_inj_of_legal {legal : α → Prop} {f : α → β} {first second : List α}
    (injective : ∀ {a b}, legal a → legal b → f a = f b → a = b) (inside : ∀ a ∈ first, legal a)
    (also : ∀ b ∈ second, legal b) (same : first.map f = second.map f) : first = second := by
  induction first generalizing second with
  | nil => exact (List.map_eq_nil_iff.mp same.symm).symm
  | cons a tail ih =>
    cases second with
    | nil => contradiction
    | cons b others =>
      obtain ⟨head, later⟩ := List.cons.inj same
      obtain ⟨legalHere, legalBehind⟩ := List.forall_mem_cons.mp inside
      obtain ⟨otherHere, otherBehind⟩ := List.forall_mem_cons.mp also
      have here : a = b := injective legalHere otherHere head
      have behind : tail = others := ih legalBehind otherBehind later
      rw [here, behind]

/-- Blocks in a row, each closed by a mark that it does not hold. -/
theorem bodies_eq_of_flatMap_eq [DecidableEq β] {body : α → List β} {stop : β}
    {first second : List α} (absent : ∀ a ∈ first, stop ∉ body a)
    (otherAbsent : ∀ b ∈ second, stop ∉ body b)
    (same : first.flatMap (fun a => body a ++ [stop]) =
      second.flatMap (fun b => body b ++ [stop])) :
    first.map body = second.map body := by
  induction first generalizing second with
  | nil =>
    cases second with
    | nil => rfl
    | cons b others => simp at same
  | cons a tail ih =>
    cases second with
    | nil => simp at same
    | cons b others =>
      simp only [List.flatMap_cons, List.append_assoc, List.singleton_append] at same
      obtain ⟨here, later⟩ := append_inj_of_mark (absent a List.mem_cons_self)
        (otherAbsent b List.mem_cons_self) same
      have behind : tail.map body = others.map body :=
        ih (List.forall_mem_cons.mp absent).2 (List.forall_mem_cons.mp otherAbsent).2 later
      rw [List.map_cons, List.map_cons, here, behind]

end Flowchart.Cut
