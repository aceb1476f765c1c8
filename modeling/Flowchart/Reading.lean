import Flowchart.Line
import Flowchart.Log

/-!
Reading a source. Statements are taken in order; the only thing that one line leaves to the next,
the diagram apart, is the group that is open. A group enters the diagram when it is closed, so one
that is replaced or never closed is lost.
-/
namespace Flowchart

structure Reading where
  diagram : Diagram := {}
  openGroup : Option Group := none
  deriving DecidableEq, Repr

namespace Declaration

def node (declaration : Declaration) : Node where
  id := Ident.ofLabel declaration.label
  label := declaration.label
  shape := declaration.shape?
  color := declaration.color?
  icon := declaration.icon?

def group (declaration : Declaration) : Group where
  id := Ident.ofLabel declaration.label
  label := declaration.label
  color := declaration.color?
  icon := declaration.icon?

end Declaration

def Group.addMember (group : Group) (id : Ident) : Group :=
  { group with members := group.members ++ [id] }

/-- What reading skipped or replaced by a default. -/
inductive Notice where
  | skipped (number : Nat) (line : Text)
  | strayClose (number : Nat)
  | unknownDirection (number : Nat) (word : Text)
  | neverClosed (label : Text)
  deriving DecidableEq, Repr

namespace Notice

def message : Notice → Text
  | skipped number line => "Skipping line ".toList ++ Text.ofNat number ++ ": ".toList ++ line
  | strayClose number =>
    "Skipping line ".toList ++ Text.ofNat number ++ ": no open subgraph to close".toList
  | unknownDirection number word =>
    "Unknown direction '".toList ++ word ++ "' on line ".toList ++ Text.ofNat number ++
      "; using ".toList ++ Direction.standard.code
  | neverClosed label =>
    "Subgraph '".toList ++ label ++ "' was never closed; dropping it".toList

def entry (notice : Notice) : Log.Entry := ⟨.debug, .reading, notice.message⟩

end Notice

namespace Reading

def closeGroup (reading : Reading) : Reading :=
  match reading.openGroup with
  | none => reading
  | some group =>
    { diagram := { reading.diagram with groups := reading.diagram.groups ++ [group] }
      openGroup := none }

def addNode (reading : Reading) (node : Node) : Reading where
  diagram := { reading.diagram with nodes := reading.diagram.nodes.put node.id node }
  openGroup := reading.openGroup.map (·.addMember node.id)

def apply (reading : Reading) : Statement → Reading
  | .nothing | .unreadableGroup _ | .unspacedArrow _ => reading
  | .title text => { reading with diagram := { reading.diagram with title := some text } }
  | .direction word =>
    let direction := (Direction.ofWord? word).getD .standard
    { reading with diagram := { reading.diagram with direction := direction.code } }
  | .close => reading.closeGroup
  | .chain links =>
    { reading with
      diagram := { reading.diagram with edges := reading.diagram.edges ++ links.map Link.edge } }
  | .group declaration => { reading with openGroup := some declaration.group }
  | .node declaration => reading.addNode declaration.node

def notice? (reading : Reading) (number : Nat) : Statement → Option Notice
  | .unreadableGroup line | .unspacedArrow line => some (.skipped number line)
  | .direction word =>
    if (Direction.ofWord? word).isNone then some (.unknownDirection number word) else none
  | .close => if reading.openGroup.isNone then some (.strayClose number) else none
  | _ => none

def ofStatements (statements : List Statement) : Reading := statements.foldl apply {}

def ofSource (source : Text) : Reading := ofStatements (Statement.ofSource source)

/-- The notices of the statements from line `number` on, and at last the group left open. -/
def noticesFrom (reading : Reading) (number : Nat) : List Statement → List Notice
  | [] => (reading.openGroup.map fun group => Notice.neverClosed group.label).toList
  | statement :: rest =>
    (reading.notice? number statement).toList ++
      noticesFrom (reading.apply statement) (number + 1) rest

def notices (source : Text) : List Notice := noticesFrom {} 1 (Statement.ofSource source)

end Reading

def Diagram.ofSource (source : Text) : Diagram := (Reading.ofSource source).diagram

end Flowchart
