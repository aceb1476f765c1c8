/-!
Lists that were edited in places. What is not touched stays, element by element and in its order.
-/
namespace Flowchart

variable {α : Type} {touches : List α → List α → Prop} {before after old new : List α}

/-- The second list is the first one with some of its parts replaced, each in a way that is allowed
for it. -/
inductive Edited (touches : List α → List α → Prop) : List α → List α → Prop
  | nil : Edited touches [] []
  | keep (a : α) {before after : List α} (rest : Edited touches before after) :
    Edited touches (a :: before) (a :: after)
  | change {old new before after : List α} (touched : touches old new)
    (rest : Edited touches before after) : Edited touches (old ++ before) (new ++ after)

namespace Edited

theorem keep_append (kept : List α) (rest : Edited touches before after) :
    Edited touches (kept ++ before) (kept ++ after) := by
  induction kept with
  | nil => exact rest
  | cons a kept ih => exact .keep a ih

theorem refl (same : List α) : Edited touches same same := by
  induction same with
  | nil => exact .nil
  | cons a rest ih => exact .keep a ih

/-- What every edit keeps of the elements it touches holds of all elements behind the edits. -/
theorem forall_mem {P : α → Prop} (edited : Edited touches before after)
    (each : ∀ {old new}, touches old new → (∀ a ∈ old, P a) → ∀ a ∈ new, P a)
    (all : ∀ a ∈ before, P a) : ∀ a ∈ after, P a := by
  induction edited with
  | nil => exact all
  | keep a _ ih =>
    obtain ⟨first, later⟩ := List.forall_mem_cons.mp all
    exact List.forall_mem_cons.mpr ⟨first, ih later⟩
  | change touched _ ih =>
    obtain ⟨within, later⟩ := List.forall_mem_append.mp all
    exact List.forall_mem_append.mpr ⟨each touched within, ih later⟩

theorem ne_nil (edited : Edited touches before after)
    (each : ∀ {old new}, touches old new → new ≠ []) (nonempty : before ≠ []) : after ≠ [] := by
  cases edited with
  | nil => contradiction
  | keep a _ => exact List.cons_ne_nil a _
  | change touched _ => exact List.append_ne_nil_of_left_ne_nil (each touched) _

end Edited

end Flowchart
