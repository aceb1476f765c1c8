import Flowchart.Proofs.Debounce.Run

/-!
Files do not influence each other. In any run, the changes of other files can be left out or put in
without a difference to what happens to a file.
-/
namespace Flowchart.Debounce

variable {T : Type}

/-- Whether a call can concern a file: the change of another one cannot. -/
def Call.concerns (path : Path) : Call → Bool
  | change other => other == path
  | flush => true

/-- What a run shows of one file: the calls that can concern it, and how often each of them hands it
over. -/
def view (path : Path) (entries : List (Entry T)) : List (T × Call × Nat) :=
  (entries.filter (·.call.concerns path)).map fun entry =>
    (entry.now, entry.call, entry.handed.count path)

theorem view_cons_of_pos {path : Path} {entry : Entry T}
    (concerned : entry.call.concerns path = true) (rest : List (Entry T)) :
    view path (entry :: rest) =
      (entry.now, entry.call, entry.handed.count path) :: view path rest := by
  simp [view, concerned]

theorem view_cons_of_neg {path : Path} {entry : Entry T}
    (foreign : entry.call.concerns path = false) (rest : List (Entry T)) :
    view path (entry :: rest) = view path rest := by
  simp [view, foreign]

section

variable [Sub T] [LT T] [LE T] [DecidableLT T] [DecidableLE T]

theorem step_of_not_concerns {call : Call} {path : Path} (foreign : call.concerns path = false)
    (own : Own T) (window now : T) : own.step window now path call = (own, false) := by
  cases call with
  | change other =>
    have different : other ≠ path := by simpa [Call.concerns] using foreign
    rw [Own.step, if_pos different]
  | flush => contradiction

/-- Two debouncers between which a file sees no difference. -/
structure Alike (path : Path) (state other : Debounce T) : Prop where
  window : state.window = other.window
  own : state.own path = other.own path
  distinct : state.pending.Nodup
  distinct_other : other.pending.Nodup

variable {path : Path} {state other : Debounce T}

/-- Both take the same call. -/
theorem Alike.both (alike : Alike path state other) (now : T) (call : Call) :
    Alike path (state.step now call).1 (other.step now call).1 ∧
      (state.step now call).2.count path = (other.step now call).2.count path := by
  refine ⟨⟨?_, ?_, ?_, ?_⟩, ?_⟩
  · rw [window_step, window_step, alike.window]
  · rw [own_step, own_step, alike.own, alike.window]
  · exact (nodup_step state now call alike.distinct).1
  · exact (nodup_step other now call alike.distinct_other).1
  · rw [count_step _ _ _ _ alike.distinct, count_step _ _ _ _ alike.distinct_other, alike.own,
      alike.window]

/-- One of them takes a call that does not concern the file. -/
theorem Alike.skip (alike : Alike path state other) (now : T) {call : Call}
    (foreign : call.concerns path = false) : Alike path (state.step now call).1 other where
  window := (window_step state now call).trans alike.window
  own := by rw [own_step, step_of_not_concerns foreign, alike.own]
  distinct := (nodup_step state now call alike.distinct).1
  distinct_other := alike.distinct_other

/-- A file sees the same run if the calls that do not concern it are left out. -/
theorem Alike.view_log (alike : Alike path state other) (calls : List (T × Call)) :
    view path (state.log calls) = view path (other.log (calls.filter (·.2.concerns path))) := by
  induction calls generalizing state other with
  | nil => rfl
  | cons first rest ih =>
    obtain ⟨now, call⟩ := first
    rw [log, List.filter_cons]
    cases concerned : call.concerns path with
    | true =>
      obtain ⟨after, counts⟩ := alike.both now call
      rw [if_pos rfl, log, view_cons_of_pos concerned, view_cons_of_pos concerned, ih after, counts]
    | false =>
      rw [if_neg Bool.false_ne_true, view_cons_of_neg concerned, ih (alike.skip now concerned)]

/-- A call that does not concern a file does not hand it over. -/
theorem concerns_of_mem_handed {calls : List (T × Call)} {entry : Entry T}
    (member : entry ∈ state.log calls) (handed : path ∈ entry.handed) :
    entry.call.concerns path = true := by
  induction calls generalizing state with
  | nil => contradiction
  | cons first rest ih =>
    rcases List.mem_cons.mp member with here | later
    · by_contra foreign
      have due := (mem_step state first.1 path first.2).mp (by simpa [here] using handed)
      rw [step_of_not_concerns (by simpa [here] using foreign)] at due
      contradiction
    · exact ih later

/-- Files are debounced one by one. Take any two runs of a fresh debouncer that are the same once
the changes of all other files are taken out. Then the calls that are left hand the file over in
both runs alike, at once or with a flush, and the calls that are taken out never do. -/
theorem files_independent (window : T) (path : Path) {calls others : List (T × Call)}
    (same : calls.filter (·.2.concerns path) = others.filter (·.2.concerns path)) :
    view path ((fresh window).log calls) = view path ((fresh window).log others) ∧
      (∀ entry ∈ (fresh window).log calls,
        path ∈ entry.handed → entry.call.concerns path = true) ∧
      ∀ entry ∈ (fresh window).log others,
        path ∈ entry.handed → entry.call.concerns path = true := by
  have start : Alike path (fresh window) (fresh window) :=
    ⟨rfl, rfl, List.nodup_nil, List.nodup_nil⟩
  refine ⟨?_, fun _ => concerns_of_mem_handed, fun _ => concerns_of_mem_handed⟩
  rw [start.view_log calls, start.view_log others, same]

end

/-- Another file that changes as often, and is due at the same flush, makes no difference. -/
theorem files_independent_of_neighbour :
    let file : Path := { parts := ["a.flow".toList] }
    let other : Path := { parts := ["b.flowdsl".toList] }
    let calls : List (Int × Call) :=
      [(0, .change other), (0, .change file), (1, .change file), (1, .change other), (12, .flush)]
    let others : List (Int × Call) := [(0, .change file), (1, .change file), (12, .flush)]
    calls.filter (·.2.concerns file) = others.filter (·.2.concerns file) ∧
      view file ((fresh 10).log calls) = view file ((fresh 10).log others) ∧
      (∀ entry ∈ (fresh 10).log calls, file ∈ entry.handed → entry.call.concerns file = true) ∧
      ∀ entry ∈ (fresh 10).log others, file ∈ entry.handed → entry.call.concerns file = true :=
  ⟨by decide, files_independent 10 _ (by decide)⟩

end Flowchart.Debounce
