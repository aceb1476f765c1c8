import Flowchart.Proofs.Debounce.Run
import Mathlib.Algebra.Order.Group.Int
import Mathlib.Algebra.Order.Group.Unbundled.Basic
import Mathlib.Data.List.Chain

/-!
The history of one file in a run: its changes, and the times when it was handed over to be handled.
A file is handed over only behind a change that came after the time before, never sooner than a
window after that time, and a change that is not followed by such a time keeps the file waiting.
-/
namespace Flowchart.Debounce

variable {T : Type}

/-- What happens to a file. -/
inductive Mark (T : Type) where
  | changed (now : T)
  | handled (now : T)
  deriving DecidableEq, Repr

namespace Mark

def isChange : Mark T → Bool
  | changed _ => true
  | handled _ => false

def handled? : Mark T → Option T
  | changed _ => none
  | handled now => some now

end Mark

/-- A change that is handled at once leaves two marks. -/
def Entry.marks (path : Path) (entry : Entry T) : List (Mark T) :=
  (if entry.call = .change path then [.changed entry.now] else []) ++
    List.replicate (entry.handed.count path) (.handled entry.now)

def history (path : Path) (entries : List (Entry T)) : List (Mark T) :=
  entries.flatMap (Entry.marks path)

/-- When the file was handled. -/
def times (marks : List (Mark T)) : List T := marks.filterMap Mark.handled?

/-- In front of each time when the file was handled stands a change of it, with no other such time
between the two. -/
def Asked (marks : List (Mark T)) : Prop :=
  ∀ before now after, marks = before ++ .handled now :: after →
    ∃ asked, before.getLast? = some (.changed asked)

section Marks

variable {marks : List (Mark T)}

@[simp] theorem times_changed (marks : List (Mark T)) (now : T) :
    times (marks ++ [.changed now]) = times marks := by
  rw [times, List.filterMap_append]
  exact List.append_nil _

@[simp] theorem times_handled (marks : List (Mark T)) (now : T) :
    times (marks ++ [.handled now]) = times marks ++ [now] :=
  List.filterMap_append

theorem Asked.of_concat {mark : Mark T} (asked : Asked (marks ++ [mark])) : Asked marks := by
  intro before now after same
  apply asked before now (after ++ [mark])
  rw [same, List.append_assoc, List.cons_append]

theorem Asked.concat {mark : Mark T} (asked : Asked marks)
    (front : ∀ now, mark = .handled now → ∃ time, marks.getLast? = some (.changed time)) :
    Asked (marks ++ [mark]) := by
  intro before now after same
  rcases List.eq_nil_or_concat after with none | ⟨between, last, more⟩
  · rw [none] at same
    obtain ⟨rest, here⟩ := List.append_inj' same rfl
    rw [← rest]
    exact front now (List.singleton_inj.mp here)
  · rw [more, List.concat_eq_append, ← List.cons_append, ← List.append_assoc] at same
    exact asked before now between (List.append_inj' same rfl).1

theorem Asked.changed (asked : Asked marks) (now : T) : Asked (marks ++ [.changed now]) :=
  asked.concat (by simp)

/-- Each time that the file was handled takes a change of its own, and a change at the end is left
over. -/
theorem Asked.length_times (asked : Asked marks) :
    (times marks).length + (marks.getLast?.any Mark.isChange).toNat ≤
      marks.countP Mark.isChange := by
  induction marks using List.reverseRecOn with
  | nil => exact Nat.le_refl 0
  | append_singleton before mark ih =>
    have earlier := ih asked.of_concat
    cases mark with
    | changed now =>
      simp only [times_changed, List.countP_append, List.countP_singleton, Mark.isChange,
        List.getLast?_concat, Option.any_some, Bool.toNat_true, if_true]
      omega
    | handled now =>
      obtain ⟨time, front⟩ := asked before now [] rfl
      simp only [front, Option.any_some, Mark.isChange, Bool.toNat_true] at earlier
      simp only [times_handled, List.length_append, List.length_singleton, List.countP_append,
        List.countP_singleton, Mark.isChange, List.getLast?_concat, Option.any_some,
        Bool.toNat_false, Bool.false_eq_true, if_false]
      omega

theorem history_append (path : Path) (entries later : List (Entry T)) :
    history path (entries ++ later) = history path entries ++ history path later :=
  List.flatMap_append

end Marks

/-! ### The machine of one file and its history -/

/-- What a file's own machine knows is what its history tells: when it was handled last, and whether
a change came since then. -/
structure Accords (window : T) (path : Path) [Sub T] [LE T] (marks : List (Mark T)) (own : Own T) :
    Prop where
  last : own.last? = (times marks).getLast?
  waits : own.waits = true ↔
    accepts path = true ∧ ∃ asked, marks.getLast? = some (.changed asked)
  /-- A file does not wait unless it was handled before. -/
  before : own.waits = true → own.last?.isSome
  spaced : (times marks).IsChain fun earlier later => window ≤ later - earlier
  asked : Asked marks

section Accords

variable [Sub T] [LinearOrder T] {window now : T} {path : Path} {marks : List (Mark T)}
  {own : Own T}

theorem accords_nil (window : T) (path : Path) : Accords window path [] ({} : Own T) where
  last := rfl
  waits := by simp
  before := by simp
  spaced := List.IsChain.nil
  asked := by simp [Asked]

theorem Accords.reject (accords : Accords window path marks own)
    (rejected : accepts path = false) : Accords window path (marks ++ [.changed now]) own where
  last := by rw [times_changed, accords.last]
  waits := by simp [accords.waits, rejected]
  before := accords.before
  spaced := by rw [times_changed]; exact accords.spaced
  asked := accords.asked.changed now

theorem Accords.defer (accords : Accords window path marks own) (accepted : accepts path = true)
    (recent : own.isRecent window now = true) :
    Accords window path (marks ++ [.changed now]) { own with waits := true } where
  last := by rw [times_changed, accords.last]
  waits := by simp [accepted]
  before := by
    intro _
    obtain ⟨last, known, _⟩ := (Option.any_eq_true _ _).mp recent
    exact Option.isSome_of_eq_some known
  spaced := by rw [times_changed]; exact accords.spaced
  asked := accords.asked.changed now

/-- The file is handled, with a change in front. -/
theorem accords_handled {asked : T}
    (spaced : (times marks).IsChain fun earlier later => window ≤ later - earlier)
    (answered : Asked marks) (front : marks.getLast? = some (.changed asked))
    (elapsed : ∀ last ∈ (times marks).getLast?, window ≤ now - last) :
    Accords window path (marks ++ [.handled now]) { last? := some now } where
  last := by rw [times_handled, List.getLast?_concat]
  waits := by simp
  before := by simp
  spaced := by
    rw [times_handled]
    refine List.isChain_append.mpr ⟨spaced, List.isChain_singleton now, ?_⟩
    intro last known later here
    rw [← Option.some.inj here]
    exact elapsed last known
  asked := answered.concat fun _ _ => ⟨asked, front⟩

theorem Accords.atOnce (accords : Accords window path marks own)
    (settled : own.isRecent window now = false) :
    Accords window path (marks ++ [.changed now, .handled now]) { last? := some now } := by
  rw [← List.singleton_append, ← List.append_assoc]
  apply accords_handled _ (accords.asked.changed now) List.getLast?_concat
  · intro last known
    rw [times_changed, ← accords.last] at known
    rw [Own.isRecent, known] at settled
    exact not_lt.mp (of_decide_eq_false settled)
  · rw [times_changed]
    exact accords.spaced

theorem Accords.late (accords : Accords window path marks own)
    (due : own.isDue window now = true) :
    Accords window path (marks ++ [.handled now]) { last? := some now } := by
  obtain ⟨waits, elapsed⟩ := (Bool.and_eq_true _ _).mp due
  obtain ⟨_, asked, front⟩ := accords.waits.mp waits
  apply accords_handled accords.spaced accords.asked front
  intro last known
  rw [← accords.last] at known
  rw [known] at elapsed
  exact of_decide_eq_true elapsed

/-- One call. -/
theorem Accords.step (accords : Accords window path marks own) (now : T) (call : Call) :
    Accords window path
      (marks ++ ((if call = .change path then [.changed now] else []) ++
        List.replicate (own.step window now path call).2.toNat (.handled now)))
      (own.step window now path call).1 := by
  cases call with
  | change other =>
    by_cases same : other = path
    · subst same
      cases accepted : accepts other with
      | false => simpa [Own.step, accepted] using accords.reject accepted
      | true =>
        cases recent : own.isRecent window now with
        | true => simpa [Own.step, accepted, recent] using accords.defer accepted recent
        | false => simpa [Own.step, accepted, recent] using accords.atOnce recent
    · simpa [Own.step, same] using accords
  | flush =>
    cases due : own.isDue window now with
    | false => simpa [Own.step, due] using accords
    | true => simpa [Own.step, due] using accords.late due

/-- A whole run. -/
theorem accords_run (window : T) (calls : List (T × Call)) (path : Path) :
    Accords window path (history path ((fresh window).log calls))
      (((fresh window).run calls).own path) := by
  induction calls using List.reverseRecOn with
  | nil => exact accords_nil window path
  | append_singleton before call ih =>
    obtain ⟨now, call⟩ := call
    have counts := count_step ((fresh window).run before) now path call (nodup_run window before)
    have after := own_step ((fresh window).run before) now path call
    rw [window_run] at counts after
    have step := ih.step now call
    rw [log_append, run_append, history_append]
    simp only [log, run, history, List.flatMap_singleton, Entry.marks, counts, after]
    exact step

end Accords

/-! ### Whole runs -/

/-- A file that is neither changed nor handed over leaves no mark. -/
theorem history_eq_nil {path : Path} {entries : List (Entry T)}
    (quiet : ∀ entry ∈ entries, entry.call ≠ .change path ∧ path ∉ entry.handed) :
    history path entries = [] := by
  apply List.flatMap_eq_nil_iff.mpr
  intro entry member
  obtain ⟨unchanged, unhandled⟩ := quiet entry member
  rw [Entry.marks, if_neg unchanged, List.count_eq_zero_of_not_mem unhandled]
  rfl

theorem length_times (path : Path) (entries : List (Entry T)) :
    (times (history path entries)).length = (entries.flatMap (·.handed)).count path := by
  have here (entry : Entry T) : (times (entry.marks path)).length = entry.handed.count path := by
    have one : Mark.handled? (.handled entry.now) = some entry.now := rfl
    rw [Entry.marks, times, List.filterMap_append, List.filterMap_replicate_of_some one]
    split <;> simp [Mark.handled?]
  induction entries with
  | nil => rfl
  | cons first rest ih =>
    rw [history, List.flatMap_cons, times, List.filterMap_append, List.length_append,
      List.flatMap_cons, List.count_append, ← ih, ← here first]
    rfl

theorem countP_isChange [Sub T] [LT T] [LE T] [DecidableLT T] [DecidableLE T]
    (state : Debounce T) (calls : List (T × Call)) (path : Path) :
    (history path (state.log calls)).countP Mark.isChange =
      calls.countP fun call => call.2 = .change path := by
  have here (entry : Entry T) : (entry.marks path).countP Mark.isChange =
      if entry.call = .change path then 1 else 0 := by
    rw [Entry.marks, List.countP_append, List.countP_replicate]
    split <;> simp [Mark.isChange]
  induction calls generalizing state with
  | nil => rfl
  | cons first rest ih =>
    rw [log, history, List.flatMap_cons, List.countP_append, here, List.countP_cons, Nat.add_comm]
    simp only [decide_eq_true_eq]
    exact congrArg (· + _) (ih _)

/-- No file is handled too soon or for nothing. Two times in a row at which a file is handled, by a
change or by a flush, are at least a window apart. In front of each of them the file changed, after
the time before if there is one; a change that is handled at once counts for its own time. So a file
is not handled more often than it changes. -/
theorem spaced_and_asked [Sub T] [LinearOrder T] (window : T) (calls : List (T × Call))
    (path : Path) :
    let log := (fresh window).log calls
    (times (history path log)).IsChain (fun earlier later => window ≤ later - earlier) ∧
      Asked (history path log) ∧
      (log.flatMap (·.handed)).count path ≤ calls.countP (fun call => call.2 = .change path) := by
  intro log
  have accords := accords_run window calls path
  refine ⟨accords.spaced, accords.asked, ?_⟩
  calc
    (log.flatMap (·.handed)).count path = (times (history path log)).length :=
      (length_times path log).symm
    _ ≤ (history path log).countP Mark.isChange :=
      (Nat.le_add_right _ _).trans accords.asked.length_times
    _ = calls.countP (fun call => call.2 = .change path) :=
      countP_isChange (fresh window) calls path

/-- No change is lost. Take a run in which a file changed last at the time `asked`, and suppose that
this call did not hand the file over and no flush behind it did. Then the file waits, the time when
it was handled last is known, and every flush from a window after that time on hands it over. -/
theorem change_not_lost [AddCommGroup T] [LinearOrder T] [IsOrderedAddMonoid T] (window : T)
    {path : Path} (accepted : accepts path = true) {before after : List (T × Call)} {asked : T}
    (deferred : path ∉ (((fresh window).run before).step asked (.change path)).2)
    (unserved : ∀ entry ∈ ((fresh window).run (before ++ [(asked, .change path)])).log after,
      entry.call ≠ .change path ∧ path ∉ entry.handed) :
    let calls := before ++ (asked, .change path) :: after
    let state := (fresh window).run calls
    path ∈ state.pending ∧
      ∃ last, (times (history path ((fresh window).log calls))).getLast? = some last ∧
        state.seen.get? path = some last ∧
        ∀ now, last + window ≤ now → path ∈ (state.flush now).2 := by
  intro calls state
  have split : calls = before ++ [(asked, .change path)] ++ after := by
    rw [List.append_assoc, List.singleton_append]
  have open_change :
      (history path ((fresh window).log calls)).getLast? = some (.changed asked) := by
    rw [split, log_append, history_append, history_eq_nil unserved, List.append_nil, log_append,
      history_append]
    simp only [log, history, List.flatMap_singleton, Entry.marks,
      List.count_eq_zero_of_not_mem deferred, if_true, List.replicate_zero, List.append_nil]
    exact List.getLast?_concat
  have accords := accords_run window calls path
  have waits := accords.waits.mpr ⟨accepted, asked, open_change⟩
  obtain ⟨last, known⟩ := Option.isSome_iff_exists.mp (accords.before waits)
  refine ⟨of_decide_eq_true waits, last, accords.last.symm.trans known, known, ?_⟩
  intro now elapsed
  have window_eq : state.window = window := window_run (fresh window) calls
  rw [mem_flush, Own.isDue, waits, known, window_eq]
  exact decide_eq_true (le_sub_iff_add_le'.mpr elapsed)

/-- Two changes, one right behind the other: a flush that comes too soon leaves the second. -/
theorem change_not_lost_in_burst :
    let file : Path := { parts := ["a.flow".toList] }
    let other : Path := { parts := ["b.flowdsl".toList] }
    let before : List (Int × Call) := [(0, .change file)]
    let after : List (Int × Call) := [(2, .change other), (3, .flush)]
    let calls := before ++ (1, .change file) :: after
    let state := (fresh 10).run calls
    accepts file = true ∧
      file ∉ (((fresh 10).run before).step 1 (.change file)).2 ∧
      (∀ entry ∈ ((fresh 10).run (before ++ [(1, .change file)])).log after,
        entry.call ≠ .change file ∧ file ∉ entry.handed) ∧
      file ∈ state.pending ∧
      ∃ last, (times (history file ((fresh 10).log calls))).getLast? = some last ∧
        state.seen.get? file = some last ∧
        ∀ now, last + 10 ≤ now → file ∈ (state.flush now).2 :=
  ⟨by decide, by decide, by decide, change_not_lost 10 (by decide) (by decide) (by decide)⟩

end Flowchart.Debounce
