import Flowchart.Proofs.Debounce.Run
import Flowchart.Proofs.Watch.Single
import Flowchart.Proofs.Watch.Start

/-!
What a watch takes for a source. The pass at the start goes by the suffix of a file; a change is
handed over by the suffix too, but only if the file is not hidden. So the two part on hidden sources
and on nothing else.
-/
namespace Flowchart

/-- The files that are handled one after the other, up to the first that fails. -/
def handled {σ ε : Type} (handle : σ → Path → σ × Option ε) (state : σ) : List Path → List Path
  | [] => []
  | path :: rest =>
    match handle state path with
    | (_, some _) => [path]
    | (after, none) => path :: handled handle after rest

section Handling

variable {σ ε : Type} {handle : σ → Path → σ × Option ε} {state : σ} {paths : List Path}

theorem handled_prefix (handle : σ → Path → σ × Option ε) (state : σ) (paths : List Path) :
    handled handle state paths <+: paths := by
  induction paths generalizing state with
  | nil => exact List.prefix_rfl
  | cons path rest ih =>
    rw [handled]
    cases handle state path with
    | mk after failure? =>
      cases failure? with
      | some failure => exact List.prefix_append [path] rest
      | none => exact List.cons_prefix_cons.mpr ⟨rfl, ih after⟩

/-- If nothing fails, everything is handled. -/
theorem handled_of_passes (through : (handleAll handle state paths).2 = none) :
    handled handle state paths = paths := by
  induction paths generalizing state with
  | nil => rfl
  | cons path rest ih =>
    rw [handleAll] at through
    rw [handled]
    cases done : handle state path with
    | mk after failure? =>
      rw [done] at through
      cases failure? with
      | some failure => contradiction
      | none => exact congrArg (List.cons path) (ih through)

end Handling

namespace Watch

variable {watch : Watch} {tree : FileTree} {report : Report} {session : Session} {path : Path}

namespace Session

/-- What the pass at the start compiles, each of them with or without success. -/
def compiledFirst (watch : Watch) (tree : FileTree) (report : Report) : List Path :=
  handled (recompile watch) (fresh watch tree report) (watch.initialSources tree)

theorem compiledFirst_prefix (watch : Watch) (tree : FileTree) (report : Report) :
    compiledFirst watch tree report <+: watch.initialSources tree :=
  handled_prefix _ _ _

theorem compiledFirst_of_passes (through : (pass watch tree report).2 = none) :
    compiledFirst watch tree report = watch.initialSources tree :=
  handled_of_passes through

/-! ### Files that no event was about -/

/-- No event among some happenings is about the file. -/
def Untold (path : Path) (happenings : List Happening) : Prop :=
  ∀ now kind event, .move (.event now kind event) ∈ happenings → changed? kind event ≠ some path

/-- One move: what was not known of a file stays unknown, unless an event is about it. -/
theorem own_move (move : Move) (unknown : session.debounce.own path = {})
    (untold : ∀ now kind event, move = .event now kind event → changed? kind event ≠ some path) :
    (session.move watch move).1.debounce.own path = {} := by
  cases move with
  | flush now =>
    have quiet : (session.debounce.own path).isDue session.debounce.window now = false := by
      rw [unknown]
      rfl
    rw [Session.move, Session.flush, debounce_handleAll, Debounce.own_flush, quiet]
    exact unknown
  | event now kind event =>
    have other := untold now kind event rfl
    rw [Session.move]
    cases about : changed? kind event with
    | none => exact unknown
    | some changed =>
      have apart : changed ≠ path := by
        rintro rfl
        exact other about
      have kept : (session.change watch now changed).1.debounce =
          (session.debounce.change now changed).1 := by
        dsimp only [Session.change]
        split
        · exact debounce_recompile watch _ changed
        · rfl
      dsimp only
      rw [kept, Debounce.own_change_of_ne _ _ _ apart, unknown]

theorem own_run {state : Session × Option Failure} {happenings : List Happening}
    (unknown : state.1.debounce.own path = {}) (untold : Untold path happenings) :
    (run watch state happenings).1.debounce.own path = {} := by
  refine run_keeps (P := fun session : Session => session.debounce.own path = {}) unknown
    (fun _ _ _ same => same) fun move member session same => ?_
  refine own_move move same fun now kind event about => ?_
  exact untold now kind event (about ▸ member)

/-- The first event about a file hands it over if it is accepted. -/
theorem mem_handed_first (unknown : session.debounce.own path = {}) {now : Float} {kind : Change}
    {event : FileEvent} (about : changed? kind event = some path) :
    path ∈ session.handed (.event now kind event) ↔ Debounce.accepts path = true := by
  have due : (session.debounce.change now path).2 = Debounce.accepts path := by
    rw [(Debounce.own_change session.debounce now path).2, unknown]
    exact Bool.and_true _
  rw [handed, about, Option.toList_some, List.mem_filter, due]
  simp

end Session

/-- The start of a watch and its handler agree on a file exactly if it is no hidden source. At the
start every file with the suffix of a source is compiled, if the pass gets to its end, and no other
one in any case. From any state that knows of no changes yet, such as the start leaves, the first
event about a file hands it over to be compiled if it has the suffix of a source and is not hidden.
-/
theorem sources_agree_iff (watch : Watch) (tree : FileTree) (report : Report) (place : Location)
    (directory : tree.isDirectory watch.path = true) (inside : place ∈ tree.below watch.location) :
    let path := Path.ofLocation place
    let passed := Session.pass watch tree report
    let first := Session.compiledFirst watch tree report
    (path ∈ first → path.hasSourceSuffix = true) ∧
      (passed.2 = none → (path ∈ first ↔ path.hasSourceSuffix = true)) ∧
      (Session.start watch tree report).1.debounce = .fresh watch.debounce ∧
      ∀ state : Session × Option Failure, state.1.debounce = .fresh watch.debounce →
        ∀ front now kind event, Session.Untold path front → changed? kind event = some path →
          let handed := (Session.run watch state front).1.handed (.event now kind event)
          (path ∈ handed ↔ path.hasSourceSuffix = true ∧ path.isHidden = false) ∧
            (passed.2 = none → ((path ∈ first ↔ path ∈ handed) ↔
              ¬(path.hasSourceSuffix = true ∧ path.isHidden = true))) := by
  intro path passed first
  have source : path ∈ watch.initialSources tree ↔ path.hasSourceSuffix = true := by
    rw [mem_initialSources directory]
    constructor
    · intro found
      obtain ⟨_, _, _, suffixed⟩ := found
      exact suffixed
    · intro suffixed
      exact ⟨place, inside, rfl, suffixed⟩
  have whole (through : passed.2 = none) : path ∈ first ↔ path.hasSourceSuffix = true := by
    rw [← source]
    exact iff_of_eq (congrArg (path ∈ ·) (Session.compiledFirst_of_passes through))
  refine ⟨?_, whole, Session.debounce_start watch tree report, ?_⟩
  · intro member
    exact source.mp ((Session.compiledFirst_prefix watch tree report).subset member)
  · intro state fresh front now kind event untold about handed
    have unknown : state.1.debounce.own path = {} := by
      rw [fresh]
      rfl
    have accepted : path ∈ handed ↔ path.hasSourceSuffix = true ∧ path.isHidden = false := by
      rw [Session.mem_handed_first (Session.own_run unknown untold) about, Debounce.accepts,
        Bool.and_eq_true, Bool.not_eq_true']
    refine ⟨accepted, fun through => ?_⟩
    rw [whole through, accepted]
    cases path.hasSourceSuffix <;> cases path.isHidden <;> decide

/-- A hidden source beside one that can be seen. -/
def veiled : FileTree where
  entries := [(["w".toList], .directory),
    (["w".toList, ".a.flow".toList], .file (Text.toUtf8 "x".toList)),
    (["w".toList, "b.flow".toList], .file (Text.toUtf8 "y".toList))]

def ofVeiled : Watch where
  location := ["w".toList]
  debounce := 1.0
  suffix := ".mmd".toList
  console := .tagged

def saved (name : Text) : FileEvent := { isDirectory := false, source := "/w/".toList ++ name }

theorem pass_veiled : (Session.pass ofVeiled veiled {}).2 = none := by
  refine pass_passes (by decide +kernel) (by decide) (by decide) (by decide) Console.lenient_tagged
    {} ?_
  intro path member
  obtain ⟨place, inside, rfl, _⟩ := (mem_initialSources (by decide +kernel)).mp member
  have all : ∀ place ∈ veiled.below ofVeiled.location, veiled.Decodes (.ofLocation place) := by
    decide +kernel
  exact all place inside

/-- After a change of the hidden source, the first change of the other one. -/
theorem sources_agree_iff_beside_hidden :
    let path : Path := .ofLocation ["w".toList, "b.flow".toList]
    let front := [.move (.event 101.0 .modified (saved ".a.flow".toList)), .move (.flush 102.0)]
    let waiting := Session.fresh ofVeiled veiled {}
    Session.Untold path front ∧ (Session.pass ofVeiled veiled {}).2 = none ∧
      path ∈ Session.compiledFirst ofVeiled veiled {} ∧
      path ∈ (Session.run ofVeiled (waiting, none) front).1.handed
        (.event 103.0 .modified (saved "b.flow".toList)) := by
  intro path front waiting
  have untold : Session.Untold path front := by
    intro now kind event member
    obtain ⟨_, rfl, rfl⟩ : now = 101.0 ∧ kind = .modified ∧ event = saved ".a.flow".toList := by
      simpa [front] using member
    decide
  obtain ⟨_, whole, _, told⟩ := sources_agree_iff ofVeiled veiled {} ["w".toList, "b.flow".toList]
    (by decide +kernel) (by decide)
  refine ⟨untold, pass_veiled, (whole pass_veiled).mpr (by decide), ?_⟩
  exact (told (waiting, none) rfl front 103.0 .modified (saved "b.flow".toList) untold
    (by decide)).1.mpr (by decide)

/-- Not every source that is compiled at the start is handed over when it changes. -/
theorem hidden_source_not_handed :
    ¬∀ (watch : Watch) (tree : FileTree) (report : Report) (place : Location),
      tree.isDirectory watch.path = true → place ∈ tree.below watch.location →
      tree.isFile (.ofLocation place) = true → (Session.pass watch tree report).2 = none →
      ∀ now kind event, changed? kind event = some (.ofLocation place) →
        (Path.ofLocation place ∈ Session.compiledFirst watch tree report ↔
          Path.ofLocation place ∈
            (Session.pass watch tree report).1.handed (.event now kind event)) := by
  intro agree
  let place : Location := ["w".toList, ".a.flow".toList]
  have same := agree ofVeiled veiled {} place (by decide +kernel) (by decide) (by decide +kernel)
    pass_veiled 101.0 .modified (saved ".a.flow".toList) (by decide)
  have first : Path.ofLocation place ∈ Session.compiledFirst ofVeiled veiled {} := by
    rw [Session.compiledFirst_of_passes pass_veiled]
    exact (mem_initialSources (by decide +kernel)).mpr ⟨place, by decide, rfl, by decide⟩
  have unknown : (Session.pass ofVeiled veiled {}).1.debounce.own (.ofLocation place) = {} := by
    rw [Session.debounce_pass]
    rfl
  have accepted := (Session.mem_handed_first unknown (by decide)).mp (same.mp first)
  exact absurd accepted (by decide)

end Watch

end Flowchart
