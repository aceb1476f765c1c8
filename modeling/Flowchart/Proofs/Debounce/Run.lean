import Flowchart.Debounce
import Flowchart.Proofs.Table
import Mathlib.Data.List.Nodup

/-!
Runs of the debouncer. A call decides in one piece which files are to be handled, so the decisions
of any number of callers happen in some order, and a run is a list of calls with the readings of the
clock. Seen from one file the debouncer is a small machine of its own, which only the changes of
that file and the flushes move.
-/
namespace Flowchart.Debounce

variable {T : Type}

inductive Call where
  | change (path : Path)
  | flush
  deriving DecidableEq, Repr

/-- A call that was made: the reading of the clock, and the files handed over to be handled. -/
structure Entry (T : Type) where
  now : T
  call : Call
  handed : List Path

/-- A debouncer that has seen nothing yet. -/
def fresh (window : T) : Debounce T := { window }

section Steps

variable [Sub T] [LT T] [LE T] [DecidableLT T] [DecidableLE T]

def step (state : Debounce T) (now : T) : Call → Debounce T × List Path
  | .change path => ((state.change now path).1, if (state.change now path).2 then [path] else [])
  | .flush => state.flush now

def run (state : Debounce T) : List (T × Call) → Debounce T
  | [] => state
  | (now, call) :: rest => run (state.step now call).1 rest

def log (state : Debounce T) : List (T × Call) → List (Entry T)
  | [] => []
  | (now, call) :: rest =>
    ⟨now, call, (state.step now call).2⟩ :: log (state.step now call).1 rest

theorem run_append (state : Debounce T) (calls later : List (T × Call)) :
    state.run (calls ++ later) = (state.run calls).run later := by
  induction calls generalizing state with
  | nil => rfl
  | cons first rest ih => exact ih _

theorem log_append (state : Debounce T) (calls later : List (T × Call)) :
    state.log (calls ++ later) = state.log calls ++ (state.run calls).log later := by
  induction calls generalizing state with
  | nil => rfl
  | cons first rest ih => exact congrArg (List.cons _) (ih _)

end Steps

/-! ### One file -/

/-- What the debouncer knows of one file: when it was handled last, and whether it waits. -/
structure Own (T : Type) where
  last? : Option T := none
  waits : Bool := false
  deriving DecidableEq, Repr

def own (state : Debounce T) (path : Path) : Own T where
  last? := state.seen.get? path
  waits := decide (path ∈ state.pending)

namespace Own

def isRecent [Sub T] [LT T] [DecidableLT T] (own : Own T) (window now : T) : Bool :=
  own.last?.any fun last => decide (now - last < window)

def isDue [Sub T] [LE T] [DecidableLE T] (own : Own T) (window now : T) : Bool :=
  own.waits && decide (window ≤ now - own.last?.getD now)

/-- What a call does to a file; the answer tells whether it hands the file over. -/
def step [Sub T] [LT T] [LE T] [DecidableLT T] [DecidableLE T] (own : Own T) (window now : T)
    (path : Path) : Call → Own T × Bool
  | .change other =>
    if other ≠ path then (own, false)
    else if !accepts path then (own, false)
    else if own.isRecent window now then ({ own with waits := true }, false)
    else ({ last? := some now }, true)
  | .flush => if own.isDue window now then ({ last? := some now }, true) else (own, false)

end Own

section Change

variable [Sub T] [LT T] [DecidableLT T] (state : Debounce T) (now : T) (path : Path)

theorem isRecent_eq : state.isRecent now path = (state.own path).isRecent state.window now := by
  rw [isRecent, Own.isRecent, own]
  cases state.seen.get? path <;> rfl

theorem own_change_of_ne {other : Path} (different : other ≠ path) :
    (state.change now other).1.own path = state.own path := by
  unfold change
  split
  · rfl
  · split
    · have kept : path ∈ (if other ∈ state.pending then state.pending
          else state.pending ++ [other]) ↔ path ∈ state.pending := by
        split
        · rfl
        · simp [different.symm]
      simp only [own, kept]
    · simp [own, Table.get?_put, different, different.symm]

/-- A change of the file itself. -/
theorem own_change :
    (state.change now path).1.own path =
        (if !accepts path then state.own path
        else if (state.own path).isRecent state.window now then
          { state.own path with waits := true }
        else { last? := some now }) ∧
      (state.change now path).2 =
        (accepts path && !(state.own path).isRecent state.window now) := by
  rw [← isRecent_eq]
  unfold change
  cases accepts path with
  | false => exact ⟨rfl, rfl⟩
  | true =>
    cases state.isRecent now path with
    | true =>
      have waits : path ∈ (if path ∈ state.pending then state.pending
          else state.pending ++ [path]) := by
        split
        · assumption
        · simp
      simp [own, waits]
    | false => simp [own, Table.get?_put]

theorem window_change : (state.change now path).1.window = state.window := by
  unfold change
  split
  · rfl
  · split <;> rfl

theorem nodup_change (distinct : state.pending.Nodup) :
    (state.change now path).1.pending.Nodup := by
  unfold change
  split
  · exact distinct
  · split
    · change (if path ∈ state.pending then state.pending else state.pending ++ [path]).Nodup
      split
      · exact distinct
      · rename_i fresh
        rw [← List.concat_eq_append]
        exact distinct.concat fresh
    · exact distinct.filter _

end Change

section Flush

variable [Sub T] [LE T] [DecidableLE T] (state : Debounce T) (now : T) (path : Path)

/-- A flush hands over the files that wait and whose window is over. -/
theorem mem_flush :
    path ∈ (state.flush now).2 ↔ (state.own path).isDue state.window now = true := by
  rw [flush, List.mem_filter, Own.isDue, own, Bool.and_eq_true, decide_eq_true_eq]
  rfl

theorem get?_seen_flush :
    (state.flush now).1.seen.get? path =
      if path ∈ (state.flush now).2 then some now else state.seen.get? path :=
  Table.get?_foldl_put state.seen (state.flush now).2 now path

theorem mem_pending_flush :
    path ∈ (state.flush now).1.pending ↔ path ∈ state.pending ∧ path ∉ (state.flush now).2 := by
  simp only [flush, List.mem_filter, Bool.not_eq_true', not_and, Bool.not_eq_true]
  constructor
  · intro kept
    exact ⟨kept.1, fun _ => kept.2⟩
  · intro kept
    exact ⟨kept.1, kept.2 kept.1⟩

theorem own_flush :
    (state.flush now).1.own path =
      if (state.own path).isDue state.window now then { last? := some now }
      else state.own path := by
  by_cases handed : path ∈ (state.flush now).2
  · rw [if_pos ((mem_flush state now path).mp handed)]
    simp [own, get?_seen_flush, mem_pending_flush, handed]
  · rw [if_neg (mt (mem_flush state now path).mpr handed)]
    simp [own, get?_seen_flush, mem_pending_flush, handed]

theorem nodup_flush (distinct : state.pending.Nodup) :
    (state.flush now).1.pending.Nodup ∧ (state.flush now).2.Nodup :=
  ⟨distinct.filter _, distinct.filter _⟩

end Flush

section Step

variable [Sub T] [LT T] [LE T] [DecidableLT T] [DecidableLE T] (state : Debounce T) (now : T)
  (path : Path) (call : Call)

theorem window_step : (state.step now call).1.window = state.window := by
  cases call with
  | change other => exact window_change state now other
  | flush => rfl

/-- Seen from one file, a call is a step of the file's own machine. -/
theorem own_step :
    (state.step now call).1.own path = ((state.own path).step state.window now path call).1 := by
  cases call with
  | change other =>
    by_cases same : other = path
    · subst same
      simp only [step, Own.step, (own_change state now other).1]
      cases accepts other <;> cases (state.own other).isRecent state.window now <;> simp
    · rw [step, Own.step, if_pos same, own_change_of_ne state now path same]
  | flush =>
    rw [step, Own.step, own_flush]
    split <;> rfl

/-- The file is handed over if its own machine says so. -/
theorem mem_step :
    path ∈ (state.step now call).2 ↔
      ((state.own path).step state.window now path call).2 = true := by
  cases call with
  | change other =>
    by_cases same : other = path
    · subst same
      simp only [step, Own.step, (own_change state now other).2]
      cases accepts other <;> cases (state.own other).isRecent state.window now <;> simp
    · have silent : path ∉ (if (state.change now other).2 then [other] else []) := by
        split <;> simp [Ne.symm same]
      rw [step, Own.step, if_pos same]
      exact iff_of_false silent Bool.false_ne_true
  | flush =>
    rw [step, Own.step, mem_flush]
    split <;> simp_all

/-- A call hands no file over twice, if no file waits twice. -/
theorem nodup_step (distinct : state.pending.Nodup) :
    (state.step now call).1.pending.Nodup ∧ (state.step now call).2.Nodup := by
  cases call with
  | change other =>
    refine ⟨nodup_change state now other distinct, ?_⟩
    rw [step]
    split
    · exact List.nodup_singleton other
    · exact List.nodup_nil
  | flush => exact nodup_flush state now distinct

theorem count_step (distinct : state.pending.Nodup) :
    (state.step now call).2.count path =
      ((state.own path).step state.window now path call).2.toNat := by
  have due := mem_step state now path call
  rw [(nodup_step state now call distinct).2.count]
  cases handed : ((state.own path).step state.window now path call).2 with
  | false => rw [if_neg (by simp [due, handed]), Bool.toNat_false]
  | true => rw [if_pos (due.mpr handed), Bool.toNat_true]

end Step

section Runs

variable [Sub T] [LT T] [LE T] [DecidableLT T] [DecidableLE T]

theorem window_run (state : Debounce T) (calls : List (T × Call)) :
    (state.run calls).window = state.window := by
  induction calls generalizing state with
  | nil => rfl
  | cons first rest ih => exact (ih _).trans (window_step state first.1 first.2)

/-- No file waits twice. -/
theorem nodup_run (window : T) (calls : List (T × Call)) :
    ((fresh window).run calls).pending.Nodup := by
  induction calls using List.reverseRecOn with
  | nil => exact List.nodup_nil
  | append_singleton before call ih =>
    rw [run_append]
    exact (nodup_step _ call.1 call.2 ih).1

end Runs

end Flowchart.Debounce
