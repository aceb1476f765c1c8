import Flowchart.Fault
import Flowchart.Mermaid
import Flowchart.Reading

/-!
Compiling a source to chart markup. Compiling never fails by itself, since lines that cannot be read
are skipped; a fault from outside is reported as a whole, without partial markup.
-/
namespace Flowchart

/-- Compiling failed altogether, because of a fault. -/
structure CompileError where
  cause : Fault
  deriving DecidableEq, Repr

def CompileError.message (error : CompileError) : Text :=
  "Failed to parse FlowDSL: ".toList ++ error.cause.summary

def CompileError.entry : Log.Entry := ⟨.error, .compiling, "FlowDSL parse error".toList⟩

def compile (source : Text) : Text := Mermaid.render (Diagram.ofSource source)

/-- Compiling where reading may meet a fault. -/
def compileWith (fault : Option Fault) (source : Text) : Except CompileError Text :=
  match fault with
  | some cause => .error ⟨cause⟩
  | none => .ok (compile source)

end Flowchart
