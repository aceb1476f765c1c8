import Flowchart.Proofs.Watch.Announcement

/-!
Watching a single file. A session moves when it is told of an event or looks at the files that wait;
between two moves others may do anything to the file tree. While the watched file is there, no move
writes anything but its target. The file is looked for anew at every move, so while it is missing
every file handed over is compiled; but where the console refuses the announcement, there is no
move.
-/
namespace Flowchart

open FileTree (Retained)

theorem handleAll_singleton {σ ε : Type} (handle : σ → Path → σ × Option ε) (state : σ)
    (path : Path) : handleAll handle state [path] = handle state path := by
  rw [handleAll]
  cases handle state path with
  | mk after failure? => cases failure? <;> rfl

/-! ### Places -/

namespace FileTree

variable {tree after : FileTree} {path target : Path} {touched : Location → Prop}

theorem isFile_iff : tree.isFile path = true ↔
    tree.locate path = .ok (tree.resolve path) ∧
      ∃ content, tree.content? (tree.resolve path) = some content := by
  rw [isFile]
  constructor
  · intro file
    split at file
    · rename_i content found
      have read : tree.read path = .ok content := by
        rw [read, found]
        rfl
      exact ⟨(read_eq_ok.mp read).1, content, (read_eq_ok.mp read).2⟩
    · contradiction
  · intro held
    obtain ⟨located, content, held⟩ := held
    obtain ⟨entry, looked, file⟩ := ok_of_bind (read_eq_ok.mpr ⟨located, held⟩)
    rw [looked]
    cases entry with
    | directory => contradiction
    | file _ => rfl

/-- No regular file is lost. -/
theorem Retained.isFile (retained : Retained touched tree after) (file : tree.isFile path = true) :
    after.isFile path = true := by
  obtain ⟨located, content, held⟩ := isFile_iff.mp file
  rw [isFile_iff, retained.resolve_eq]
  refine ⟨retained.locate_eq_ok.mpr located, ?_⟩
  rcases retained.content (tree.resolve path) with same | ⟨_, text, written⟩
  · exact ⟨content, same.trans held⟩
  · exact ⟨_, written⟩

theorem length_foldl_step (parts : List Text) (here : Location) :
    (parts.foldl step here).length ≤ here.length + parts.length := by
  induction parts generalizing here with
  | nil => exact Nat.le_refl _
  | cons part rest ih =>
    have one : (step here part).length ≤ here.length + 1 := by
      rw [step]
      split
      · simp only [List.length_dropLast]
        omega
      · split <;> simp
    have later := ih (step here part)
    rw [List.foldl_cons, List.length_cons]
    omega

theorem resolve_join (tree : FileTree) (path : Path) (part : Text) :
    tree.resolve (path.join part) = step (tree.resolve path) part := by
  rw [resolve, Path.join, List.foldl_append]
  rfl

end FileTree

/-- A name that is a component of its own: no dots that lead somewhere else. -/
def Path.Proper (name : Text) : Prop := name ≠ ['.', '.'] ∧ name ≠ ['.']

namespace Path

theorem proper_of_hasSourceSuffix {path : Path} (source : path.hasSourceSuffix = true) :
    Proper path.name := by
  rw [hasSourceSuffix, suffix] at source
  constructor
  · intro dots
    rw [dots] at source
    contradiction
  · intro dot
    rw [dot] at source
    contradiction

theorem step_of_proper {name : Text} (proper : Proper name) (here : Location) :
    FileTree.step here name = here ++ [name] := by
  rw [FileTree.step, if_neg proper.1, if_neg proper.2]

theorem eq_join {path : Path} (inside : path.parts ≠ []) : path = path.parent.join path.name := by
  have split := List.dropLast_concat_getLast inside
  rw [join, parent, name, List.getLast?_eq_some_getLast inside, Option.getD_some, split]

theorem stem_of_name {path other : Path} (same : path.name = other.name) :
    path.stem = other.stem := by
  rw [stem, stem, Path.suffix, Path.suffix, same]

theorem name_join (path : Path) (part : Text) : (path.join part).name = part := by
  simp [name, join]

end Path

namespace Watch

variable {watch : Watch} {tree : FileTree} {session : Session} {path : Path} {place : Location}

/-- The place of the target: beside the watched file, under its name with the other suffix. -/
def target? (watch : Watch) : Option Location :=
  (watch.path.withSuffix watch.suffix).toOption.map fun target =>
    FileTree.step watch.location.dropLast target.name

/-- A path to the watched file has the target of the watched file. -/
theorem target?_of_destination? (proper : Path.Proper path.name)
    (own : tree.resolve path = watch.location)
    (found : watch.destination? tree path = some place) : watch.target? = some place := by
  rw [destination?] at found
  split at found
  · contradiction
  · obtain ⟨target, renamed, same⟩ := Option.map_eq_some_iff.mp found
    obtain ⟨accepted, named, joined⟩ := Path.withSuffix_eq_ok.mp (ok_of_toOption renamed)
    have inside : path.parts ≠ [] := (Path.parts_withSuffix (ok_of_toOption renamed)).1
    have split : watch.location = tree.resolve path.parent ++ [path.name] := by
      rw [← own, ← Path.step_of_proper proper, ← FileTree.resolve_join, ← Path.eq_join inside]
    have name : watch.path.name = path.name := by
      simp [Watch.path, Path.ofLocation, Path.name, split]
    have ownTarget : watch.path.withSuffix watch.suffix =
        .ok (watch.path.parent.join (watch.path.stem ++ watch.suffix)) :=
      Path.withSuffix_eq_ok.mpr ⟨accepted, name ▸ named, rfl⟩
    rw [target?, ownTarget]
    change some (FileTree.step watch.location.dropLast _) = some place
    rw [Path.name_join, Path.stem_of_name name, ← same, joined, FileTree.resolve_join, split,
      List.dropLast_concat]

/-- Where a path of names leads to itself, its last name is no dots. -/
theorem proper_of_resolve (own : tree.resolve watch.path = watch.location)
    (inside : watch.location ≠ []) : Path.Proper watch.path.name := by
  have name : watch.path.name = watch.location.getLast inside := by
    simp [Watch.path, Path.ofLocation, Path.name, List.getLast?_eq_some_getLast inside]
  have bound := FileTree.length_foldl_step watch.location.dropLast []
  have led : FileTree.step (watch.location.dropLast.foldl FileTree.step []) watch.path.name =
      watch.location := by
    calc
      _ = (watch.location.dropLast ++ [watch.location.getLast inside]).foldl FileTree.step [] := by
        rw [name, List.foldl_append]
        rfl
      _ = watch.location.foldl FileTree.step [] := by rw [List.dropLast_concat_getLast inside]
      _ = watch.location := own
  have length := congrArg List.length led
  have positive := List.length_pos_iff.mpr inside
  rw [List.length_dropLast, List.length_nil] at bound
  constructor
  · intro dots
    rw [dots, FileTree.step, if_pos rfl, List.length_dropLast] at length
    omega
  · intro dot
    rw [dot, FileTree.step, if_neg (by decide), if_pos rfl] at length
    omega

/-! ### Sessions that go on -/

/-- What a session does of its own. -/
inductive Move where
  | event (now : Float) (kind : Change) (event : FileEvent)
  | flush (now : Float)

inductive Happening where
  /-- Others leave another file tree. -/
  | disturbance (tree : FileTree)
  | move (move : Move)

namespace Session

def move (watch : Watch) (session : Session) : Move → Session × Option Failure
  | .event now kind event =>
    match changed? kind event with
    | some path => session.change watch now path
    | none => (session, none)
  | .flush now => session.flush watch now

/-- The paths that are handed over in a move. -/
def handed (session : Session) : Move → List Path
  | .event now kind event =>
    (changed? kind event).toList.filter fun path => (session.debounce.change now path).2
  | .flush now => (session.debounce.flush now).2

/-- A session that has ended does nothing more. -/
def proceed (state : Session × Option Failure) (act : Session → Session × Option Failure) :
    Session × Option Failure :=
  match state.2 with
  | some _ => state
  | none => act state.1

/-- Others may change the file tree at any time. -/
def disturb (state : Session × Option Failure) (tree : FileTree) : Session × Option Failure :=
  ({ state.1 with tree }, state.2)

def advance (watch : Watch) (state : Session × Option Failure) :
    Happening → Session × Option Failure
  | .disturbance tree => disturb state tree
  | .move move => proceed state (·.move watch move)

def run (watch : Watch) (state : Session × Option Failure) (happenings : List Happening) :
    Session × Option Failure :=
  happenings.foldl (advance watch) state

section Runs

variable {state : Session × Option Failure} {failure : Failure}

theorem proceed_of_failed (failed : state.2 = some failure)
    (act : Session → Session × Option Failure) : proceed state act = state := by
  rw [proceed, failed]

theorem run_append (happenings later : List Happening) :
    run watch state (happenings ++ later) = run watch (run watch state happenings) later :=
  List.foldl_append

/-- What has ended does not go on. -/
theorem run_of_failed (watch : Watch) (failed : state.2 = some failure)
    (happenings : List Happening) :
    (run watch state happenings).2 = some failure := by
  induction happenings generalizing state with
  | nil => exact failed
  | cons first rest ih =>
    refine ih ?_
    cases first with
    | disturbance tree => exact failed
    | move move => rwa [advance, proceed_of_failed failed]

theorem run_moves_of_failed (failed : state.2 = some failure) (moves : List Move) :
    run watch state (moves.map .move) = state := by
  induction moves with
  | nil => rfl
  | cons first rest ih =>
    rw [List.map_cons, run, List.foldl_cons, advance, proceed_of_failed failed]
    exact ih

/-- What each happening keeps, a run keeps. -/
theorem run_keeps {P : Session → Prop} {happenings : List Happening} (start : P state.1)
    (others : ∀ tree, .disturbance tree ∈ happenings →
      ∀ session : Session, P session → P { session with tree })
    (moves : ∀ move, .move move ∈ happenings →
      ∀ session : Session, P session → P (session.move watch move).1) :
    P (run watch state happenings).1 := by
  induction happenings generalizing state with
  | nil => exact start
  | cons first rest ih =>
    refine ih ?_ (fun tree member => others tree (List.mem_cons_of_mem first member))
      fun move member => moves move (List.mem_cons_of_mem first member)
    cases first with
    | disturbance tree => exact others tree List.mem_cons_self state.1 start
    | move move =>
      rw [advance, proceed]
      split
      · exact start
      · exact moves move List.mem_cons_self state.1 start

end Runs

/-! ### Pauses -/

/-- What others leave in a pause of the program, and what it is told of behind it. -/
structure Pause where
  tree : FileTree
  now : Float
  events : List (Change × FileEvent)

def wait (watch : Watch) (state : Session × Option Failure) (pause : Pause) :
    Session × Option Failure :=
  proceed (disturb state pause.tree) (·.tick watch pause.now pause.events)

/-- The events one by one, and then a look at the files that wait. -/
def moves (now : Float) (events : List (Change × FileEvent)) : List Move :=
  events.map (fun (kind, event) => .event now kind event) ++ [.flush now]

theorem tick_eq_run (watch : Watch) (now : Float) (session : Session)
    (events : List (Change × FileEvent)) :
    session.tick watch now events = run watch (session, none) ((moves now events).map .move) := by
  induction events generalizing session with
  | nil => rfl
  | cons first rest ih =>
    obtain ⟨kind, event⟩ := first
    rw [moves, List.map_cons, List.cons_append, List.map_cons, run, List.foldl_cons, advance,
      proceed]
    cases found : changed? kind event with
    | none =>
      simp only [tick, List.filterMap_cons, found, move]
      exact ih session
    | some path =>
      simp only [tick, List.filterMap_cons, found, handleAll, move]
      cases done : session.change watch now path with
      | mk next failure? =>
        cases failure? with
        | some failure => exact (run_moves_of_failed rfl _).symm
        | none => exact ih next

def Pause.happenings (pause : Pause) : List Happening :=
  .disturbance pause.tree :: (moves pause.now pause.events).map .move

/-- The pauses of the program are runs. -/
theorem wait_eq_run (watch : Watch) (state : Session × Option Failure) (pause : Pause) :
    wait watch state pause = run watch state pause.happenings := by
  obtain ⟨session, failure?⟩ := state
  cases failure? with
  | some failure => exact (run_moves_of_failed rfl _).symm
  | none => exact tick_eq_run watch pause.now { session with tree := pause.tree } pause.events

theorem waits_eq_run (watch : Watch) (state : Session × Option Failure) (pauses : List Pause) :
    pauses.foldl (wait watch) state = run watch state (pauses.flatMap Pause.happenings) := by
  induction pauses generalizing state with
  | nil => rfl
  | cons first rest ih => rw [List.foldl_cons, List.flatMap_cons, run_append, ← wait_eq_run, ih]

/-! ### One move -/

/-- Only sources wait. -/
def Alert (session : Session) : Prop :=
  ∀ path ∈ session.debounce.pending, Debounce.accepts path = true

theorem debounce_recompile (watch : Watch) (session : Session) (path : Path) :
    (session.recompile watch path).1.debounce = session.debounce := by
  have noted : (session.noteCompiling watch path).debounce = session.debounce := by
    unfold noteCompiling
    split <;> rfl
  have said (session : Session) (markup : Text) :
      (session.say watch markup).1.debounce = session.debounce := by
    obtain ⟨report, same⟩ := say_eq watch session markup
    rw [same]
  unfold recompile
  split
  · rfl
  · dsimp only
    split
    · exact (said _ _).trans noted
    · exact (said _ _).trans noted
    · exact noted
    · exact noted

theorem debounce_handleAll (watch : Watch) (session : Session) (paths : List Path) :
    (handleAll (recompile watch) session paths).1.debounce = session.debounce := by
  refine handleAll_keeps (P := fun state : Session => state.debounce = session.debounce) ?_ rfl
  intro path _ state same
  exact (debounce_recompile watch state path).trans same

/-- A move hands paths over, and changes what waits. -/
theorem move_eq_handleAll (watch : Watch) (session : Session) (move : Move) :
    ∃ debounce, session.move watch move =
        handleAll (recompile watch) { session with debounce } (session.handed move) ∧
      ∀ path ∈ debounce.pending,
        path ∈ session.debounce.pending ∨ Debounce.accepts path = true := by
  cases move with
  | flush now =>
    refine ⟨(session.debounce.flush now).1, rfl, fun path member => .inl ?_⟩
    exact (List.mem_filter.mp member).1
  | event now kind event =>
    rw [Session.move, handed]
    cases changed? kind event with
    | none => exact ⟨session.debounce, rfl, fun path member => .inl member⟩
    | some path =>
      refine ⟨(session.debounce.change now path).1, ?_, ?_⟩
      · dsimp only
        rw [change]
        cases due : (session.debounce.change now path).2 with
        | false => simp [due, handleAll]
        | true =>
          simp [due, handleAll_singleton]
      · intro other member
        rw [Debounce.change] at member
        split at member
        · exact .inl member
        · rename_i accepted
          split at member
          · dsimp only at member
            split at member
            · exact .inl member
            · rcases List.mem_append.mp member with before | last
              · exact .inl before
              · rw [List.mem_singleton.mp last]
                exact .inr (by simpa using accepted)
          · exact .inl (List.mem_filter.mp member).1

theorem Alert.move (alert : session.Alert) (watch : Watch) (move : Move) :
    (session.move watch move).1.Alert := by
  obtain ⟨debounce, moved, waiting⟩ := move_eq_handleAll watch session move
  intro path member
  rw [moved, debounce_handleAll] at member
  exact (waiting path member).elim (alert path) id

/-- Only sources are handed over. -/
theorem Alert.handed (alert : session.Alert) (move : Move) :
    ∀ path ∈ session.handed move, Debounce.accepts path = true := by
  intro path member
  cases move with
  | flush now => exact alert path (List.mem_filter.mp member).1
  | event now kind event =>
    have due := (List.mem_filter.mp member).2
    rw [Debounce.change] at due
    split at due
    · contradiction
    · rename_i accepted
      simpa using accepted

/-- While the watched file is there, compiling writes nothing but its target. -/
theorem retained_recompile_own (file : session.tree.isFile watch.path = true)
    (proper : session.tree.resolve path = watch.location → Path.Proper path.name) :
    Retained (watch.target? = some ·) session.tree (session.recompile watch path).1.tree := by
  cases concerned : watch.concerns session.tree path with
  | false =>
    rw [recompile_of_unconcerned concerned]
    exact .refl session.tree
  | true =>
    have own : session.tree.resolve path = watch.location := by
      simpa [concerns, file] using concerned
    refine (retained_recompile watch session path).mono fun place found => ?_
    exact target?_of_destination? (proper own) own found

theorem retained_handleAll_own (watch : Watch) (session : Session) {paths : List Path}
    (file : session.tree.isFile watch.path = true)
    (proper : ∀ path ∈ paths, ∀ tree : FileTree,
      tree.resolve path = watch.location → Path.Proper path.name) :
    Retained (watch.target? = some ·) session.tree
      (handleAll (recompile watch) session paths).1.tree := by
  refine handleAll_keeps
    (P := fun state : Session => Retained (watch.target? = some ·) session.tree state.tree)
    ?_ (.refl _)
  intro path member state retained
  exact retained.trans (retained_recompile_own (retained.isFile file) (proper path member _))

theorem retained_move_own (alert : session.Alert) (file : session.tree.isFile watch.path = true)
    (move : Move) :
    Retained (watch.target? = some ·) session.tree (session.move watch move).1.tree := by
  obtain ⟨debounce, moved, _⟩ := move_eq_handleAll watch session move
  rw [moved]
  refine retained_handleAll_own watch { session with debounce } file ?_
  intro path member tree _
  have accepted := alert.handed move path member
  rw [Debounce.accepts, Bool.and_eq_true] at accepted
  exact Path.proper_of_hasSourceSuffix accepted.1

/-- Whether or not the watched file is there, a move writes nothing but targets of what is handed
over. -/
theorem retained_move (watch : Watch) (session : Session) (move : Move) :
    Retained (fun place => some place ∈ (session.handed move).map (watch.destination? session.tree))
      session.tree (session.move watch move).1.tree := by
  obtain ⟨debounce, moved, _⟩ := move_eq_handleAll watch session move
  rw [moved]
  exact retained_handleAll watch { session with debounce } (session.handed move)

/-! ### The start -/

theorem retained_start_own (watch : Watch) (tree : FileTree) (report : Report)
    (file : tree.isFile watch.path = true) :
    Retained (watch.target? = some ·) tree (start watch tree report).1.tree := by
  rw [tree_start, pass, initialSources, if_pos file]
  refine retained_handleAll_own watch (fresh watch tree report) file ?_
  intro path member other own
  rw [List.mem_singleton.mp member] at own ⊢
  refine proper_of_resolve own ?_
  intro root
  have directory : tree.isFile watch.path = false := by
    rw [Watch.path, root]
    rfl
  rw [directory] at file
  contradiction

theorem debounce_pass (watch : Watch) (tree : FileTree) (report : Report) :
    (pass watch tree report).1.debounce = ⟨watch.debounce, [], []⟩ :=
  debounce_handleAll watch (fresh watch tree report) (watch.initialSources tree)

theorem debounce_start (watch : Watch) (tree : FileTree) (report : Report) :
    (start watch tree report).1.debounce = ⟨watch.debounce, [], []⟩ := by
  obtain ⟨said, same⟩ := start_eq_pass watch tree report
  rw [same]
  exact debounce_pass watch tree report

theorem alert_start (watch : Watch) (tree : FileTree) (report : Report) :
    (start watch tree report).1.Alert := by
  intro path member
  rw [debounce_start] at member
  contradiction

/-- While the file is there, moves write nothing but its target. -/
theorem retained_moves_own (state : Session × Option Failure) (alert : state.1.Alert)
    (file : state.1.tree.isFile watch.path = true) (moves : List Move) :
    Retained (watch.target? = some ·) state.1.tree
      (run watch state (moves.map .move)).1.tree := by
  refine (run_keeps (P := fun session : Session => session.Alert ∧
    Retained (watch.target? = some ·) state.1.tree session.tree) ⟨alert, .refl _⟩ ?_ ?_).2
  · intro other member
    obtain ⟨move, _, same⟩ := List.mem_map.mp member
    contradiction
  · intro move _ session before
    refine ⟨before.1.move watch move, ?_⟩
    exact before.2.trans (retained_move_own before.1 (before.2.isFile file) move)

end Session

/-- Watching one file. After any run, a move writes nothing but the target of the file, unless the
file is missing at that moment; then it writes targets of the paths handed over. So nothing else is
written behind a pause that leaves the file there. -/
theorem moves_write_own_target (watch : Watch) (tree : FileTree) (report : Report) :
    let begun := Session.start watch tree report
    (∀ front move,
      let session := (Session.run watch begun front).1
      Retained (fun place => watch.target? = some place ∨
          session.tree.isFile watch.path = false ∧
            some place ∈ (session.handed move).map (watch.destination? session.tree))
        session.tree (session.move watch move).1.tree) ∧
      ∀ (front : List Session.Pause) pause, pause.tree.isFile watch.path = true →
        Retained (watch.target? = some ·) pause.tree
          (Session.wait watch (front.foldl (Session.wait watch) begun) pause).1.tree := by
  intro begun
  have alert (front : List Happening) : (Session.run watch begun front).1.Alert :=
    Session.run_keeps (Session.alert_start watch tree report) (fun _ _ _ same => same)
      fun move _ _ before => before.move watch move
  refine ⟨fun front move => ?_, fun front pause file => ?_⟩
  · intro session
    cases there : session.tree.isFile watch.path with
    | true => exact (Session.retained_move_own (alert front) there move).mono fun _ own => .inl own
    | false =>
      exact (Session.retained_move watch session move).mono fun _ found => .inr ⟨rfl, found⟩
  · rw [Session.waits_eq_run, Session.wait_eq_run]
    exact Session.retained_moves_own (Session.disturb _ pause.tree) (alert _) file _

/-- Watching one file on a console that refuses a closing tag with nothing to close. Whatever others
do to the file tree, and whatever is told or waits when, the start and every move and pause behind
it write nothing but the target of the file. -/
theorem single_writes_own_target (watch : Watch) (tree : FileTree) (report : Report)
    (file : tree.isFile watch.path = true) (strict : watch.console.Strict) :
    let begun := Session.start watch tree report
    Retained (watch.target? = some ·) tree begun.1.tree ∧
      (∀ front move,
        let state := Session.run watch begun front
        Retained (watch.target? = some ·) state.1.tree
          (Session.advance watch state (.move move)).1.tree) ∧
      ∀ (front : List Session.Pause) pause,
        Retained (watch.target? = some ·) pause.tree
          (Session.wait watch (front.foldl (Session.wait watch) begun) pause).1.tree := by
  intro begun
  obtain ⟨failure, failed⟩ := Session.start_fails strict tree report
  refine ⟨Session.retained_start_own watch tree report file, ?_, ?_⟩
  · intro front move state
    rw [Session.advance, Session.proceed_of_failed (Session.run_of_failed watch failed front)]
    exact .refl _
  · intro front pause
    rw [Session.waits_eq_run]
    have ended : (Session.disturb (Session.run watch begun
        (front.flatMap Session.Pause.happenings)) pause.tree).2 = some failure :=
      Session.run_of_failed watch failed _
    rw [Session.wait, Session.proceed_of_failed ended]
    exact .refl _

/-- A file that is watched, and its neighbour. -/
def pair : FileTree where
  entries := [(["w".toList], .directory),
    (["w".toList, "a.flow".toList], .file (Text.toUtf8 "x".toList)),
    (["w".toList, "b.flow".toList], .file (Text.toUtf8 "y".toList))]

def ofFirst : Watch where
  location := ["w".toList, "a.flow".toList]
  debounce := 1.0
  suffix := ".mmd".toList
  console := .tagged

/-- The neighbour changes while the watched file is missing. -/
theorem single_writes_own_target_beside :
    let gone := pair.remove ofFirst.location
    let changed : Session.Pause := ⟨gone, 100.0,
      [(.modified, { isDirectory := false, source := "/w/b.flow".toList })]⟩
    pair.isFile ofFirst.path = true ∧ gone.isFile ofFirst.path = false ∧
      Retained (ofFirst.target? = some ·) gone
        (Session.wait ofFirst (Session.start ofFirst pair {}) changed).1.tree := by
  intro gone changed
  have file : pair.isFile ofFirst.path = true := by decide +kernel
  refine ⟨file, by decide +kernel, ?_⟩
  exact (single_writes_own_target ofFirst pair {} file Console.strict_tagged).2.2 [] changed

end Watch

end Flowchart
