import Flowchart.Console
import Flowchart.Debounce
import Flowchart.Decimal.Shortest
import Flowchart.Sibling
import Flowchart.Text.Markup

/-!
Watching a file or a directory: every source is compiled at the start and again whenever it changes.
A session is a state that readings of the clock and events of the file system move on; the file tree
it works on is part of the state, and what others write comes into it between two steps.
-/
namespace Flowchart

structure Watch where
  /-- The place of what is watched. -/
  location : Location
  debounce : Float
  suffix : Text
  fault : Option Fault := none
  console : Console

namespace Watch

def path (watch : Watch) : Path := .ofLocation watch.location

/-- Half the window, but between 0.1 and 0.5 seconds, passes between two flushes. -/
def pause (watch : Watch) : Float :=
  let half := (if 1.0 < watch.debounce then 1.0 else watch.debounce) / 2
  if 0.1 < half then half else 0.1

/-- What the file system is asked for events of: a directory, with or without what is below it. -/
structure Observed where
  path : Path
  recursive : Bool
  deriving DecidableEq, Repr

/-- A file is observed through the directory that holds it. -/
def observed (watch : Watch) (tree : FileTree) : Observed where
  path := if tree.isFile watch.path then watch.path.parent else watch.path
  recursive := tree.isDirectory watch.path

/-- The sources to compile at the start: the watched file whatever its suffix, or everything below
the watched directory that has the suffix of a source, ordered by path. -/
def initialSources (watch : Watch) (tree : FileTree) : List Path :=
  if tree.isFile watch.path then [watch.path]
  else
    let sources := (tree.below watch.location).filter fun place =>
      (Path.ofLocation place).hasSourceSuffix
    (sources.mergeSort fun a b => !Path.precedes b a).map .ofLocation

/-- While a single file is watched, no other one is compiled. -/
def concerns (watch : Watch) (tree : FileTree) (path : Path) : Bool :=
  !tree.isFile watch.path || tree.resolve path == watch.location

/-- What can happen to a file. -/
inductive Change where
  | modified
  | created
  | moved
  | deleted
  deriving DecidableEq, Repr

/-- The file to look at after an event: a change that leaves none behind is of no interest. -/
def changed? (change : Change) (event : FileEvent) : Option Path :=
  if change = .deleted then none else event.changed?

structure Session where
  tree : FileTree
  report : Report
  debounce : Debounce Float
  compiled : Nat := 0

def warning (path : Path) (error : FileTree.Error) : Log.Entry :=
  ⟨.warning, .watching,
    "Could not recompile ".toList ++ path.toText ++ ": ".toList ++ error.message⟩

/-- What the console shows of a source that was compiled. -/
def doneLine (watch : Watch) (path target : Path) : Text :=
  "  ".toList ++ Markup.tick ++ [' '] ++ watch.console.escape path.name ++ " → ".toList ++
    watch.console.escape target.name

/-- What the console shows of a source that cannot be compiled. -/
def failedLine (watch : Watch) (path : Path) (error : CompileError) : Text :=
  "  ".toList ++ Markup.cross ++ [' '] ++ watch.console.escape path.name ++ ": ".toList ++
    watch.console.escape error.message

/-- What the console shows when watching begins, line by line. -/
def announcement (watch : Watch) : List Text := [
  "\n[bold green]👀 Watching[/bold green] ".toList ++
    Markup.cyan (watch.console.escape watch.path.toText) ++ " for changes...".toList,
  "[dim]  Debounce:  ".toList ++ Decimal.text 2 watch.debounce ++ ['s'],
  "  Output:    *".toList ++ watch.console.escape watch.suffix,
  "  Press Ctrl+C to stop[/dim]\n".toList]

namespace Session

/-- Shows a line. One that the console refuses ends the session. -/
def say (watch : Watch) (session : Session) (markup : Text) : Session × Option Failure :=
  match watch.console.print session.report (.line markup) with
  | .ok report => ({ session with report }, none)
  | .error fault => (session, some (.fault fault))

def note (session : Session) (entries : List Log.Entry) : Session :=
  { session with report := session.report.note entries }

/-- The entries of compiling a file that can be read. -/
def noteCompiling (session : Session) (watch : Watch) (path : Path) : Session :=
  match session.tree.readText path with
  | .ok source => session.note (Log.ofCompiling watch.fault source)
  | .error _ => session

/-- Compiles one file if it concerns the watch. A source that cannot be compiled and a file that
cannot be read or written are reported; any other failure ends the session. -/
def recompile (watch : Watch) (session : Session) (path : Path) : Session × Option Failure :=
  if !watch.concerns session.tree path then (session, none)
  else
    let session := session.noteCompiling watch path
    match Sibling.compile watch.fault watch.suffix session.tree path with
    | .ok (target, tree) =>
      let session := { session with tree, compiled := session.compiled + 1 }
      session.say watch (watch.doneLine path target)
    | .error (.compile error) => session.say watch (watch.failedLine path error)
    | .error (.file error) => (session.note [warning path error], none)
    | .error failure => (session, some failure)

/-- A session that has not begun yet. -/
def fresh (watch : Watch) (tree : FileTree) (report : Report) : Session where
  tree
  report
  debounce := ⟨watch.debounce, [], []⟩

/-- Compiles every source, one after the other. -/
def pass (watch : Watch) (tree : FileTree) (report : Report) : Session × Option Failure :=
  handleAll (recompile watch) (fresh watch tree report) (watch.initialSources tree)

/-- Compiles every source, and then waits for changes. -/
def start (watch : Watch) (tree : FileTree) (report : Report) : Session × Option Failure :=
  match pass watch tree report with
  | (session, some failure) => (session, some failure)
  | (session, none) => handleAll (say watch) session watch.announcement

def change (watch : Watch) (now : Float) (session : Session) (path : Path) :
    Session × Option Failure :=
  let (debounce, due) := session.debounce.change now path
  let session := { session with debounce }
  if due then session.recompile watch path else (session, none)

def flush (watch : Watch) (now : Float) (session : Session) : Session × Option Failure :=
  let (debounce, due) := session.debounce.flush now
  handleAll (recompile watch) { session with debounce } due

/-- Takes the events of one pause, and then the files whose window is over. -/
def tick (watch : Watch) (now : Float) (session : Session) (events : List (Change × FileEvent)) :
    Session × Option Failure :=
  let paths := events.filterMap fun (kind, event) => changed? kind event
  match handleAll (change watch now) session paths with
  | (session, some failure) => (session, some failure)
  | (session, none) => session.flush watch now

def stop (watch : Watch) (session : Session) : Session × Option Failure :=
  session.say watch ("\n[yellow]Stopped watching.[/yellow] Compiled ".toList ++
    Text.ofNat session.compiled ++ " time(s).".toList)

end Session

end Watch

end Flowchart
