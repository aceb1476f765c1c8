import Flowchart.Fence
import Flowchart.Proofs.Edited
import Mathlib.Data.List.Forall2

/-!
What converting a document touches. The segments of a document are its lines in their order, so
putting something else in place of each block keeps every other line.
-/
namespace Flowchart

variable {fence : Fence} {lines : List Text} {segments : List Segment} {pieces : List (List Text)}
  {result : Text → Text → Prop}

/-- The lines of a fenced block: an opening line, lines that do not close it, and a closing line. -/
structure Fence.Encloses (fence : Fence) (body lines : List Text) : Prop where
  fenced : ∃ opening closing, lines = opening :: (body ++ [closing]) ∧
    Fence.opening? opening = some fence ∧ fence.isClosing closing = true
  inside : ∀ line ∈ body, fence.isClosing line = false

theorem Fence.closed_of_close? {body after : List Text}
    (closed : fence.close? lines = some (body, after)) :
    ∃ closing, lines = body ++ closing :: after ∧ fence.isClosing closing = true ∧
      ∀ line ∈ body, fence.isClosing line = false := by
  induction lines generalizing body with
  | nil => contradiction
  | cons line rest ih =>
    rw [close?] at closed
    split at closed
    · rename_i closes
      obtain ⟨rfl, rfl⟩ := Prod.mk.inj (Option.some.inj closed)
      exact ⟨line, rfl, closes, fun _ inside => absurd inside List.not_mem_nil⟩
    · rename_i goesOn
      obtain ⟨⟨inner, behind⟩, found, same⟩ := Option.map_eq_some_iff.mp closed
      obtain ⟨rfl, rfl⟩ := Prod.mk.inj same
      obtain ⟨closing, shown, closes, inside⟩ := ih found
      refine ⟨closing, congrArg (line :: ·) shown, closes, ?_⟩
      exact List.forall_mem_cons.mpr ⟨Bool.eq_false_iff.mpr goesOn, inside⟩

namespace Segment

/-- Lines with the segments that they fall into. -/
inductive Divides : List Text → List Segment → Prop
  | nil : Divides [] []
  | line (first : Text) {rest : List Text} {segments : List Segment}
    (later : Divides rest segments) : Divides (first :: rest) (line first :: segments)
  | block {fence : Fence} {body fenced rest : List Text} {segments : List Segment}
    (encloses : fence.Encloses body fenced) (later : Divides rest segments) :
    Divides (fenced ++ rest) (block fence body :: segments)

section Opening

variable {first : Text} {rest body after : List Text}

theorem ofLines_of_plain (plain : Fence.opening? first = none) :
    ofLines (first :: rest) = line first :: ofLines rest := by
  rw [ofLines.eq_def]
  dsimp only
  rw [plain]

theorem ofLines_of_unclosed (opens : Fence.opening? first = some fence)
    (unclosed : fence.close? rest = none) :
    ofLines (first :: rest) = line first :: ofLines rest := by
  rw [ofLines.eq_def]
  dsimp only
  rw [opens]
  dsimp only
  split
  · rfl
  · simp_all

theorem ofLines_of_closed (opens : Fence.opening? first = some fence)
    (closed : fence.close? rest = some (body, after)) :
    ofLines (first :: rest) = block fence body :: ofLines after := by
  rw [ofLines.eq_def]
  dsimp only
  rw [opens]
  dsimp only
  split <;> simp_all

end Opening

theorem divides_ofLines (lines : List Text) : Divides lines (ofLines lines) := by
  induction lines using ofLines.induct with
  | case1 =>
    rw [ofLines]
    exact .nil
  | case2 first rest plain ih =>
    rw [ofLines_of_plain plain]
    exact .line first ih
  | case3 first rest fence opens unclosed ih =>
    rw [ofLines_of_unclosed opens unclosed]
    exact .line first ih
  | case4 first rest fence opens body after closed shorter ih =>
    obtain ⟨closing, shown, closes, inside⟩ := Fence.closed_of_close? closed
    have encloses : fence.Encloses body (first :: (body ++ [closing])) :=
      ⟨⟨first, closing, rfl, opens, closes⟩, inside⟩
    have cut : first :: rest = first :: (body ++ [closing]) ++ after := by
      rw [shown, List.cons_append, List.append_assoc, List.singleton_append]
    rw [ofLines_of_closed opens closed, cut]
    exact .block encloses ih

/-- The edits of converting: the lines of a block become the lines of what its source gives. -/
def Compiles (result : Text → Text → Prop) (before after : List Text) : Prop :=
  ∃ fence body markup, Fence.Encloses fence body before ∧
    result (body.flatMap (· ++ ['\n'])) markup ∧ after = compiledLines fence markup

/-- What may stand for a segment: a line for itself, and for a block what its source gives. -/
inductive Stands (result : Text → Text → Prop) : Segment → List Text → Prop
  | line (text : Text) : Stands result (line text) [text]
  | block {fence : Fence} {body : List Text} {markup : Text}
    (given : result (body.flatMap (· ++ ['\n'])) markup) :
    Stands result (block fence body) (compiledLines fence markup)

/-- Where each segment is replaced by what may stand for it, the blocks are edited and nothing else.
-/
theorem edited_of_stands (divides : Divides lines segments)
    (standing : List.Forall₂ (Stands result) segments pieces) :
    Edited (Compiles result) lines pieces.flatten := by
  induction divides generalizing pieces with
  | nil =>
    cases standing
    exact .nil
  | line first _ ih =>
    cases standing with
    | cons stands later =>
      cases stands
      exact .keep first (ih later)
  | block encloses _ ih =>
    cases standing with
    | cons stands later =>
      cases stands with
      | block given => exact .change ⟨_, _, _, encloses, given, rfl⟩ (ih later)

/-- Where there are no blocks, the lines stand for themselves. -/
theorem flatten_of_no_source (divides : Divides lines segments)
    (free : segments.filterMap source? = [])
    (standing : List.Forall₂ (Stands result) segments pieces) : pieces.flatten = lines := by
  induction divides generalizing pieces with
  | nil =>
    cases standing
    rfl
  | line first _ ih =>
    cases standing with
    | cons stands later =>
      cases stands
      exact congrArg (first :: ·) (ih free later)
  | block => exact absurd free (List.cons_ne_nil _ _)

end Segment

end Flowchart
