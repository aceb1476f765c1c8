import Flowchart.Mermaid
import Flowchart.Reading

/-!
Diagnostics: what compiling a source skips, defaults or overwrites, ordered by line. Among the
diagnostics of one line the order of finding stays.
-/
namespace Flowchart.Lint

inductive Severity where
  | error
  | warning
  deriving DecidableEq, Repr

def Severity.name : Severity → Text
  | error => "error".toList
  | warning => "warning".toList

inductive Problem where
  | idCollision (label previous : Text) (id : Ident)
  | unknownProperty (key : Text)
  | unknownShape (shape : Text)
  | unknownDirection (word : Text)
  | strayClose
  | chainLabel (label : Text)
  | unreadableGroup (line : Text)
  | unspacedArrow (line : Text)
  | replacedGroup (label next : Text)
  | neverClosed (label : Text)
  | undeclared (id : Ident)
  deriving DecidableEq, Repr

namespace Problem

def code : Problem → Text
  | idCollision .. => "id-collision".toList
  | unknownProperty _ => "unknown-property".toList
  | unknownShape _ => "unknown-shape".toList
  | unknownDirection _ => "unknown-direction".toList
  | strayClose => "stray-close".toList
  | chainLabel _ => "chain-label".toList
  | unreadableGroup _ | unspacedArrow _ => "skipped-line".toList
  | replacedGroup .. | neverClosed _ => "unclosed-subgraph".toList
  | undeclared _ => "undeclared-node".toList

def severity : Problem → Severity
  | idCollision .. | replacedGroup .. | neverClosed _ => .error
  | _ => .warning

def message : Problem → Text
  | idCollision label previous id =>
    ['\x27'] ++ label ++ "' and '".toList ++ previous ++ "' both map to id '".toList ++ id ++
      "'; the later definition wins".toList
  | unknownProperty key => "Property '".toList ++ key ++ "' is ignored".toList
  | unknownShape shape =>
    "Shape '".toList ++ shape ++ "' is not supported; using rectangle".toList
  | unknownDirection word => "Unknown direction '".toList ++ word ++ "'; using TB".toList
  | strayClose => "'\x7d' without an open group".toList
  | chainLabel label =>
    "Label '".toList ++ label ++
      "' sits inside a chain; it also becomes part of the next node id".toList
  | unreadableGroup line => "Could not read group declaration: ".toList ++ line
  | unspacedArrow line =>
    "Line looks like a relationship but is missing spaces: ".toList ++ line
  | replacedGroup label next =>
    "Group '".toList ++ label ++ "' is replaced by '".toList ++ next ++
      "' before being closed".toList
  | neverClosed label =>
    "Group '".toList ++ label ++ "' is never closed with '\x7d' and will not be rendered".toList
  | undeclared id =>
    ['\x27'] ++ id ++ "' is used in a relationship but never declared".toList

end Problem

structure Diagnostic where
  line : Nat
  problem : Problem
  deriving DecidableEq, Repr

/-- What the diagnostics of later lines depend on. -/
structure State where
  /-- The label seen last for each identifier. -/
  labels : Table Ident Text := []
  declared : List Ident := []
  /-- The ends of edges, with their lines. -/
  ends : List (Ident × Nat) := []
  openGroup : Option (Text × Nat) := none
  deriving DecidableEq, Repr

namespace State

def assign (state : State) (label : Text) : State :=
  { state with labels := state.labels.put (Ident.ofLabel label) label }

def apply (state : State) (number : Nat) : Statement → State
  | .close => { state with openGroup := none }
  | .chain links =>
    { state with
      ends := state.ends ++ (links.map Link.edge).flatMap fun edge =>
        [(edge.source, number), (edge.target, number)] }
  | .group declaration =>
    { state.assign declaration.label with openGroup := some (declaration.label, number) }
  | .node declaration =>
    let state := state.assign declaration.label
    { state with declared := state.declared ++ [Ident.ofLabel declaration.label] }
  | _ => state

/-- Another label that the identifier of `label` had last. -/
def collision? (state : State) (label : Text) : Option Problem :=
  ((state.labels.get? (Ident.ofLabel label)).filter (· ≠ label)).map fun previous =>
    .idCollision label previous (Ident.ofLabel label)

end State

def propertyProblems (properties : Property.Properties) : List Problem :=
  (properties.keys.filter (!Property.known.contains ·)).map .unknownProperty ++
    (((Mermaid.filled (properties.get? "shape".toList)).filter (!Shape.isKnown ·)).map
      .unknownShape).toList

/-- The problems of one statement, after the lines that led to `state`. -/
def problems (state : State) : Statement → List Problem
  | .direction word => if (Direction.ofWord? word).isNone then [.unknownDirection word] else []
  | .close => if state.openGroup.isNone then [.strayClose] else []
  | .chain links =>
    links.dropLast.filterMap fun link => (Chain.splitLabel link.right).2.map .chainLabel
  | .unreadableGroup line => [.unreadableGroup line]
  | .unspacedArrow line => [.unspacedArrow line]
  | .group declaration =>
    (state.openGroup.map fun (label, _) => .replacedGroup label declaration.label).toList ++
      (state.collision? declaration.label).toList ++ propertyProblems declaration.properties
  | .node declaration =>
    (state.collision? declaration.label).toList ++ propertyProblems declaration.properties
  | .nothing | .title _ => []

/-- The problems that show only at the end: a group left open, and ends of edges that no line
declares. -/
def closing (state : State) : List Diagnostic :=
  (state.openGroup.map fun (label, number) => ⟨number, .neverClosed label⟩).toList ++
    (state.ends.filter (!state.declared.contains ·.1)).map fun (id, number) =>
      ⟨number, .undeclared id⟩

def findFrom (state : State) (number : Nat) : List Statement → List Diagnostic
  | [] => closing state
  | statement :: rest =>
    (problems state statement).map (⟨number, ·⟩) ++
      findFrom (state.apply number statement) (number + 1) rest

/-- In the order of finding. -/
def find (source : Text) : List Diagnostic := findFrom {} 1 (Statement.ofSource source)

end Flowchart.Lint

namespace Flowchart

def lint (source : Text) : List Lint.Diagnostic :=
  (Lint.find source).mergeSort fun a b => a.line ≤ b.line

end Flowchart
