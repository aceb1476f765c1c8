import Flowchart.Command.Perform
import Flowchart.Watch

/-!
Running a command line. A run ends at once, or it watches and is moved on by the steps of its
session.
-/
namespace Flowchart.Command

structure Outcome where
  status : Nat
  crash : Option Crash
  report : Report
  tree : FileTree

inductive Run where
  | ended (outcome : Outcome)
  | watching (watch : Watch) (session : Watch.Session)

def version : Text := "FlowDSL CLI v".toList ++ Ink.version

def stopAside {α : Type} : Aside → Job α
  | .version => do
    Job.write (version ++ ['\n'])
    Job.exit 0
  | .answered status output => do
    Job.write output
    Job.exit status

def orAside {α : Type} : Except Aside α → Job α
  | .ok result => return result
  | .error aside => stopAside aside

/-- Puts the level of the log in force: everything if that is asked for, else what the settings say.
The settings are loaded under the standard level. -/
def setLevel (surroundings : Surroundings) (tree : FileTree) (verbose : Bool) : Job Unit := do
  if verbose then Job.tell ({ · with level := .debug })
  else
    let settings ← Job.settings surroundings tree
    Job.tell ({ · with level := settings.logLevel })

def prepareWatch (surroundings : Surroundings) (tree : FileTree) (name : Text)
    (interval : Option Float) (suffix : Option Text) : Job Watch := do
  let console := surroundings.console
  if !surroundings.canObserve then
    Job.line console (Markup.cross ++ " watchdog is not installed.".toList)
    Job.line console "[dim]Install with: pip install watchdog[/dim]".toList
    Job.exit refused
  Job.lookAt "lstat".toList name
  let location := tree.resolve (Path.ofText name)
  if (← Job.orCrash (tree.look (.ofLocation location))).isNone then
    Job.fail console ("Path not found: ".toList ++ name)
  let settings ← Job.settings surroundings tree
  return {
    location
    debounce := interval.getD settings.watchInterval
    suffix := if suffix.getD [] = [] then settings.outputSuffix else suffix.getD []
    fault := surroundings.fault
    console }

/-- What is left to do once everything is read that the command depends on. -/
inductive Rest where
  | save (saving : Option Saving)
  | watch (watch : Watch)

def prepare (surroundings : Surroundings) (tree : FileTree) (words : List Text) : Job Rest := do
  let invocation ← orAside (surroundings.grammar.invocation words)
  setLevel surroundings tree invocation.verbose
  match ← orAside (surroundings.grammar.command invocation.verb invocation.words) with
  | .task asked =>
    asked.named.forM fun path => Job.lookAt "stat".toList path.toText
    return .save (← asked.perform surroundings tree)
  | .watch path interval suffix =>
    return .watch (← prepareWatch surroundings tree path interval suffix)

def Outcome.finished (report : Report) (tree : FileTree) : Outcome := ⟨0, none, report, tree⟩

def Outcome.crashed (cause : Crash) (report : Report) (tree : FileTree) : Outcome :=
  ⟨refused, some cause, report, tree⟩

def Outcome.stopped (report : Report) (tree : FileTree) : Stop → Outcome
  | .exited status => ⟨status, none, report, tree⟩
  | .crashed cause => crashed cause report tree

/-- Shows a line at the end. The console may refuse it, and then the end is another one. -/
def Outcome.told (console : Console) (report : Report) (tree : FileTree) (markup : Text)
    (status : Nat) : Outcome :=
  match console.print report (.line markup) with
  | .ok after => ⟨status, none, after, tree⟩
  | .error fault => crashed (.failure (.fault fault)) report tree

/-- Writes what a task leaves to be written. -/
def Outcome.ofSaving (console : Console) (report : Report) (tree : FileTree) :
    Option Saving → Outcome
  | none => finished report tree
  | some saving =>
    match saving.change.apply tree with
    | (after, none) => told console report after saving.markup 0
    | (after, some cause) =>
      match saving.excuse? cause with
      | some markup => told console report after markup refused
      | none => crashed cause report after

/-- A session that goes on, or the outcome of the failure that ended it. -/
def Run.ofSession (watch : Watch) : Watch.Session × Option Failure → Run
  | (session, none) => watching watch session
  | (session, some failure) => ended (.crashed (.failure failure) session.report session.tree)

def run (surroundings : Surroundings) (tree : FileTree) (words : List Text) : Run :=
  match (prepare surroundings tree words).run.run {} with
  | (.error stop, report) => .ended (.stopped report tree stop)
  | (.ok (.save saving), report) => .ended (.ofSaving surroundings.console report tree saving)
  | (.ok (.watch watched), report) =>
    .ofSession watched (Watch.Session.start watched tree report)

/-- The outcome of a session that is interrupted. -/
def Outcome.interrupted (watch : Watch) (session : Watch.Session) : Outcome :=
  match session.stop watch with
  | (last, none) => finished last.report last.tree
  | (last, some failure) => crashed (.failure failure) last.report last.tree

end Flowchart.Command
