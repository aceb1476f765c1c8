import Flowchart.Ink
import Flowchart.Log
import Flowchart.Text.Markup

/-!
What a run of the program says: text on the standard output, blocks on the console, log entries and
the requests it makes. Each of them is in the order of saying.
-/
namespace Flowchart

/-- One thing on the console. Cells and bodies may hold console markup. -/
inductive Block where
  | line (markup : Text)
  | table (title : Text) (columns : List Text) (rows : List (List Text))
  | panel (title body : Text)
  deriving DecidableEq, Repr

/-- The block on a console without styles; the cells of a row stand between tabs. -/
def Block.plain : Block → Text
  | line markup => Markup.plain markup
  | table title columns rows =>
    Text.unlines (Markup.plain title ::
      (columns :: rows).map fun row => ['\t'].intercalate (row.map Markup.plain))
  | panel title body => Text.unlines [Markup.plain title, Markup.plain body]

structure Report where
  /-- The level that entries are shown from. -/
  level : Log.Level := .warning
  output : Text := []
  printed : List Block := []
  log : List Log.Entry := []
  requests : List Ink.Request := []
  deriving DecidableEq, Repr

namespace Report

def print (report : Report) (blocks : List Block) : Report :=
  { report with printed := report.printed ++ blocks }

def line (report : Report) (markup : Text) : Report := report.print [.line markup]

def write (report : Report) (text : Text) : Report :=
  { report with output := report.output ++ text }

/-- Adds the entries that the level in force shows. -/
def note (report : Report) (entries : List Log.Entry) : Report :=
  { report with log := report.log ++ Log.shown report.level entries }

/-- Nothing said yet, with the same level in force. -/
def fresh (report : Report) : Report := { level := report.level }

def request (report : Report) (request : Ink.Request) : Report :=
  { report with requests := report.requests ++ [request] }

end Report

namespace Log

/-- The entries of reading a source. -/
def ofReading (source : Text) : List Entry := (Reading.notices source).map Notice.entry

/-- The entries of compiling a source, where reading may meet a fault. -/
def ofCompiling (fault : Option Fault) (source : Text) : List Entry :=
  match fault with
  | some _ => [CompileError.entry]
  | none => ofReading source

end Log

end Flowchart
