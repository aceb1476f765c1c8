import Flowchart.Command.Grammar
import Flowchart.Console
import Flowchart.Settings.Store
import Flowchart.Text.Markup

/-!
The steps that commands are made of. A job reads its surroundings, adds to a report, and either
yields something or stops the program; it cannot change the file tree.
-/
namespace Flowchart.Command

/-- What a run depends on, the file tree and the command line apart. -/
structure Surroundings where
  home : Settings.Home
  grammar : Grammar
  console : Console
  input : Bytes := []
  /-- A fault that reading a source meets. -/
  fault : Option Fault := none
  fetch : Ink.Request → Ink.Reply := fun _ => .offline
  /-- Whether the file system can tell about changes. -/
  canObserve : Bool := true

/-- What ends the program where nobody handles it. -/
inductive Crash where
  | failure (cause : Failure)
  | settings (cause : Settings.Error)
  deriving DecidableEq, Repr

def Crash.message : Crash → Text
  | failure cause => cause.message
  | settings cause => cause.message

inductive Stop where
  | exited (status : Nat)
  | crashed (cause : Crash)
  deriving DecidableEq, Repr

/-- The status of a run that a command itself ends, and that of a document that is no file. -/
def refused : Nat := 1

def absent : Nat := 2

abbrev Job := ExceptT Stop (StateM Report)

namespace Job

def tell (change : Report → Report) : Job Unit := modify change

def write (text : Text) : Job Unit := tell (·.write text)

def note (entries : List Log.Entry) : Job Unit := tell (·.note entries)

def exit {α : Type} (status : Nat) : Job α := throw (.exited status)

def crash {α : Type} (cause : Crash) : Job α := throw (.crashed cause)

/-- Shows a block. One that the console refuses ends the program. -/
def print (console : Console) (block : Block) : Job Unit := do
  match console.print (← get) block with
  | .ok after => set after
  | .error fault => crash (.failure (.fault fault))

def line (console : Console) (markup : Text) : Job Unit := print console (.line markup)

/-- Says on the console why the command goes no further. -/
def fail {α : Type} (console : Console) (message : Text) : Job α := do
  line console (Markup.cross ++ [' '] ++ console.escape message)
  exit refused

def orCrash {α : Type} : Except Failure α → Job α
  | .ok result => return result
  | .error cause => crash (.failure cause)

/-- Takes the warnings of a step on the settings into the report. -/
def noted {α : Type} (step : Settings.Step α) : Job (Except Settings.Error α) := do
  note step.2
  return step.1

def settings (surroundings : Surroundings) (tree : FileTree) : Job Settings := do
  match ← noted (Settings.load surroundings.home tree) with
  | .ok settings => return settings
  | .error error => crash (.settings error)

/-- A path with a null character cannot even be asked for. -/
def lookAt (call : Text) (path : Text) : Job Unit := do
  if '\x00' ∈ path then crash (.failure (.nullCharacter (some call)))

/-- The text of a source. -/
def source (surroundings : Surroundings) (tree : FileTree) (name : Text) : Job Text := do
  if name = standardInput then orCrash ((Utf8.decodeLines surroundings.input).mapError .encoding)
  else
    match ← orCrash (tree.look (Path.ofText name)) with
    | some (.file _) => orCrash (tree.readText (Path.ofText name))
    | _ => fail surroundings.console ("File not found: ".toList ++ name)

/-- Chart markup of a source; a source that cannot be compiled ends the command. -/
def compiled (surroundings : Surroundings) (source : Text) : Job Text := do
  note (Log.ofCompiling surroundings.fault source)
  match compileWith surroundings.fault source with
  | .ok markup => return markup
  | .error error => fail surroundings.console error.message

/-- The path of a document that has to be a file; a separator or a dot behind a name asks for a
directory. -/
def document (tree : FileTree) (name : Text) : Job Path := do
  let last := ((name.splitOn '/').getLast?).getD []
  if last ≠ [] ∧ last ≠ ['.'] ∧ tree.isFile (Path.ofText name) then return Path.ofText name
  else exit absent

end Job

end Flowchart.Command
