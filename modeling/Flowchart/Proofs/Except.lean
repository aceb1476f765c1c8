/-!
Steps that can fail. A chain of steps gives a result if each of them does; what a chain gives is
taken apart step by step.
-/
namespace Flowchart

variable {ε α β : Type} {result : Except ε α}

theorem ok_of_map {f : α → β} {b : β} (mapped : result.map f = .ok b) :
    ∃ a, result = .ok a ∧ f a = b := by
  cases result with
  | error _ => contradiction
  | ok a => exact ⟨a, rfl, Except.ok.inj mapped⟩

theorem ok_of_bind {f : α → Except ε β} {b : β} (bound : (result >>= f) = .ok b) :
    ∃ a, result = .ok a ∧ f a = .ok b := by
  cases result with
  | error _ => contradiction
  | ok a => exact ⟨a, rfl, bound⟩

@[simp] theorem mapError_ok {ε' : Type} (f : ε → ε') (a : α) :
    (Except.ok a : Except ε α).mapError f = .ok a := rfl

@[simp] theorem mapError_error {ε' : Type} (f : ε → ε') (error : ε) :
    (Except.error error : Except ε α).mapError f = .error (f error) := rfl

theorem ok_of_mapError {ε' : Type} {f : ε → ε'} {a : α} (mapped : result.mapError f = .ok a) :
    result = .ok a := by
  cases result with
  | error _ => contradiction
  | ok b => exact congrArg Except.ok (Except.ok.inj mapped)

/-- What every step of a chain over a list keeps holds at its end. -/
theorem of_foldlM {step : β → α → Except ε β} {P : β → Prop} {list : List α} {first last : β}
    (kept : ∀ b a b', P b → step b a = .ok b' → P b') (start : P first)
    (ran : list.foldlM step first = .ok last) : P last := by
  induction list generalizing first with
  | nil => exact Except.ok.inj ran ▸ start
  | cons a rest ih =>
    rw [List.foldlM_cons] at ran
    obtain ⟨middle, stepped, later⟩ := ok_of_bind ran
    exact ih (kept first a middle start stepped) later

theorem ok_of_toOption {a : α} (found : result.toOption = some a) : result = .ok a := by
  cases result with
  | error _ => contradiction
  | ok b => exact congrArg Except.ok (Option.some.inj found)

end Flowchart
