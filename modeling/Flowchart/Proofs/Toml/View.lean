import Flowchart.Proofs.Table
import Flowchart.Toml.Value

/-!
The content of a document without the order of its tables. Two documents hold the same if the same
is seen at every path through them.
-/
namespace Flowchart.Toml

/-- A step into a table or into an array. -/
inductive Step where
  | entry (name : Text)
  | item (index : Nat)
  deriving DecidableEq, Repr

namespace Value

/-- What is seen of a value without a step into it, and without its text inside messages. -/
def face : Value → Value
  | table _ => table []
  | array _ => array []
  | moment kind plain _ => moment kind plain []
  | other => other

def view : List Step → Value → Option Value
  | [], value => some value.face
  | .entry name :: rest, table entries => (Table.get? entries name).bind (view rest)
  | .item index :: rest, array items => items[index]?.bind (view rest)
  | _ :: _, _ => none

end Value

def view (path : List Step) (document : Document) : Option Value := (Value.table document).view path

variable {document other : Document} {name : Text}

theorem view_congr (same : document.get? name = other.get? name) (rest : List Step) :
    view (.entry name :: rest) document = view (.entry name :: rest) other := by
  rw [view, view, Value.view, Value.view, same]

theorem view_of_none (missing : document.get? name = none) (rest : List Step) :
    view (.entry name :: rest) document = none := by
  rw [view, Value.view, missing]
  rfl

theorem view_of_some {value : Value} (found : document.get? name = some value)
    (rest : List Step) : view (.entry name :: rest) document = value.view rest := by
  rw [view, Value.view, found]
  rfl

theorem view_eq_none : view [.entry name] document = none ↔ document.get? name = none := by
  rw [view, Value.view]
  cases document.get? name with
  | none => simp
  | some value => simp [Value.view]

theorem view_eq_table :
    view [.entry name] document = some (.table []) ↔
      ∃ entries, document.get? name = some (.table entries) := by
  rw [view, Value.view]
  cases document.get? name with
  | none => simp
  | some value => cases value <;> simp [Value.view, Value.face]

end Flowchart.Toml
