import Flowchart.Color
import Flowchart.Diagram

/-!
Chart markup of a diagram: a header, the title as a comment, one line for each node, the groups, the
edges, and styles of the coloured nodes and groups at the end. An empty line stands before groups,
edges and styles, if there are any.
-/
namespace Flowchart

namespace Shape

def rectangle : Text × Text := (['['], [']'])

def brackets : Table Text (Text × Text) := [
  ("rectangle".toList, rectangle),
  ("oval".toList, (['(', '['], [']', ')'])),
  ("stadium".toList, (['(', '['], [']', ')'])),
  ("diamond".toList, (['\x7b'], ['\x7d'])),
  ("hexagon".toList, (['\x7b', '\x7b'], ['\x7d', '\x7d'])),
  ("parallelogram".toList, (['[', '/'], ['/', ']'])),
  ("trapezoid".toList, (['[', '/'], ['\\', ']'])),
  ("circle".toList, (['(', '('], [')', ')'])),
  ("database".toList, (['[', '('], [')', ']'])),
  ("subroutine".toList, (['[', '['], [']', ']'])),
  ("asymmetric".toList, (['>'], [']']))]

def isKnown (shape : Text) : Bool := (brackets.get? shape).isSome

/-- The brackets around the label of a node; a missing or unknown shape is a rectangle. -/
def bracketsOf (shape : Option Text) : Text × Text :=
  ((shape.bind brackets.get?).getD rectangle)

end Shape

namespace Mermaid

/-- The text of an optional field, if it holds something. -/
def filled (field : Option Text) : Option Text := field.filter (!·.isEmpty)

def indent : Text := [' ', ' ']

def inQuotes (text : Text) : Text := '\x22' :: text ++ ['\x22']

def displayLabel (node : Node) : Text :=
  match filled node.icon with
  | some icon => "fa:fa-".toList ++ icon ++ [' '] ++ node.label
  | none => node.label

def nodeLine (node : Node) : Text :=
  let (opening, closing) := Shape.bracketsOf node.shape
  indent ++ node.id ++ opening ++ inQuotes (displayLabel node) ++ closing

def fill (color : Option Text) : Text := Color.resolve (color.getD [])

def nodeStyle (node : Node) : Text :=
  let fill := fill node.color
  indent ++ "style ".toList ++ node.id ++ " fill:".toList ++ fill ++ ",stroke:".toList ++ fill ++
    ",color:".toList ++ Color.textOn fill

def groupLines (group : Group) : List Text :=
  [indent ++ "subgraph ".toList ++ group.id ++ ['['] ++ inQuotes group.label ++ [']']] ++
    group.members.map (indent ++ indent ++ ·) ++ [indent ++ "end".toList]

/-- The fill of a group is translucent, so that its members stay readable. -/
def groupStyle (group : Group) : Text :=
  let fill := fill group.color
  indent ++ "style ".toList ++ group.id ++ " fill:".toList ++ fill ++ "20,stroke:".toList ++ fill

def edgeLine (edge : Edge) : Text :=
  match filled edge.label with
  | some label =>
    indent ++ edge.source ++ " -->|".toList ++ inQuotes label ++ "| ".toList ++ edge.target
  | none => indent ++ edge.source ++ " --> ".toList ++ edge.target

def titleLines (title : Option Text) : List Text :=
  ((filled title).map (indent ++ "%% ".toList ++ ·)).toList

/-- A section after an empty line, or nothing. -/
def spaced : List Text → List Text
  | [] => []
  | line :: rest => [] :: line :: rest

def styles (diagram : Diagram) : List Text :=
  (diagram.nodes.values.filter fun node => (filled node.color).isSome).map nodeStyle ++
    (diagram.groups.filter fun group => (filled group.color).isSome).map groupStyle

def lines (diagram : Diagram) : List Text :=
  ["flowchart ".toList ++ diagram.direction] ++ titleLines diagram.title ++
    diagram.nodes.values.map nodeLine ++ spaced (diagram.groups.flatMap groupLines) ++
    spaced (diagram.edges.map edgeLine) ++ spaced (styles diagram)

def render (diagram : Diagram) : Text := Text.unlines (lines diagram)

end Mermaid

end Flowchart
