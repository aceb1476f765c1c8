import Flowchart.Ident
import Flowchart.Table
import Flowchart.Text.Blank
import Flowchart.Text.Case

/-!
Diagrams: nodes in order of first declaration, edges and groups in order of writing.
-/
namespace Flowchart

inductive Direction where
  | leftRight
  | rightLeft
  | topBottom
  | bottomTop
  deriving DecidableEq, Repr

namespace Direction

/-- The word of the chart markup. -/
def code : Direction → Text
  | leftRight => "LR".toList
  | rightLeft => "RL".toList
  | topBottom => "TB".toList
  | bottomTop => "BT".toList

def standard : Direction := topBottom

def keywords : Table Text Direction := [
  ("right".toList, leftRight), ("left".toList, rightLeft),
  ("down".toList, topBottom), ("up".toList, bottomTop),
  ("lr".toList, leftRight), ("rl".toList, rightLeft),
  ("tb".toList, topBottom), ("bt".toList, bottomTop)]

def ofWord? (word : Text) : Option Direction := keywords.get? (Text.lower (Text.trim word))

end Direction

structure Node where
  id : Ident
  label : Text
  shape : Option Text := none
  color : Option Text := none
  icon : Option Text := none
  deriving DecidableEq, Repr

structure Edge where
  source : Ident
  target : Ident
  label : Option Text := none
  deriving DecidableEq, Repr

structure Group where
  id : Ident
  label : Text
  members : List Ident := []
  color : Option Text := none
  icon : Option Text := none
  deriving DecidableEq, Repr

/-- The direction is the word that the markup shows, a `Direction.code` in every diagram that is
read from a source. -/
structure Diagram where
  direction : Text := Direction.standard.code
  title : Option Text := none
  nodes : Table Ident Node := []
  edges : List Edge := []
  groups : List Group := []
  deriving DecidableEq, Repr

end Flowchart
