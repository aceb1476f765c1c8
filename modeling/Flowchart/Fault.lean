import Flowchart.Text.Basic

/-!
Faults that are none of the program's own.
-/
namespace Flowchart

/-- A fault that is none of the program's own: the name of its kind and its text. -/
structure Fault where
  kind : Text
  detail : Text
  deriving DecidableEq, Repr

namespace Fault

/-- The text of the fault, or its kind if it says nothing. -/
def summary (fault : Fault) : Text := if fault.detail.isEmpty then fault.kind else fault.detail

end Fault

end Flowchart
