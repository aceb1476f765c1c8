import Flowchart.Chain

/-!
Lines of a source. What a line is depends on the line alone: comments and keywords come first, then
arrows, then groups, and any other line that holds something declares a node.
-/
namespace Flowchart

namespace Line

inductive Kind where
  | blank
  | comment
  | title
  | direction
  | groupClose
  | relationship
  | groupOpen
  | node
  deriving DecidableEq, Repr

namespace Kind

def name : Kind → Text
  | blank => "blank".toList
  | comment => "comment".toList
  | title => "title".toList
  | direction => "direction".toList
  | groupClose => "subgraph_close".toList
  | relationship => "relationship".toList
  | groupOpen => "subgraph_open".toList
  | node => "node".toList

end Kind

def titleMark : Text := "title ".toList

def directionMark : Text := "direction ".toList

def closeMark : Text := ['\x7d']

def hasSpacedArrow (line : Text) : Bool :=
  Text.occursIn " > ".toList line || Text.occursIn " < ".toList line

def hasArrow (label : Text) : Bool := label.any fun c => c == '>' || c == '<'

def kind (line : Text) : Kind :=
  if line.isEmpty then .blank
  else if "//".toList.isPrefixOf line then .comment
  else if titleMark.isPrefixOf line then .title
  else if directionMark.isPrefixOf line then .direction
  else if line = closeMark then .groupClose
  else if hasSpacedArrow line then .relationship
  else if line.getLast? = some '\x7b' then .groupOpen
  else .node

end Line

/-- What a line of a source says. -/
inductive Statement where
  | nothing
  | title (text : Text)
  | direction (word : Text)
  | close
  | chain (links : List Link)
  | group (declaration : Declaration)
  | node (declaration : Declaration)
  /-- A declaration of a group that cannot be read. -/
  | unreadableGroup (line : Text)
  /-- A line with an arrow that lacks a blank on one side. -/
  | unspacedArrow (line : Text)
  deriving DecidableEq, Repr

namespace Statement

def ofLine (line : Text) : Statement :=
  match Line.kind line with
  | .blank | .comment => nothing
  | .title => title (Text.trim (line.drop Line.titleMark.length))
  | .direction => direction (Text.trim (line.drop Line.directionMark.length))
  | .groupClose => close
  | .relationship => chain (Chain.links line)
  | .groupOpen =>
    match Declaration.group? line with
    | some declaration => group declaration
    | none => unreadableGroup line
  | .node =>
    match Declaration.node? line with
    | some declaration =>
      if Line.hasArrow declaration.label then unspacedArrow line else node declaration
    | none => nothing

/-- One statement for each line, blanks at both ends of the line left out. -/
def ofSource (source : Text) : List Statement :=
  (Text.lines source).map fun line => ofLine (Text.trim line)

end Statement

end Flowchart
