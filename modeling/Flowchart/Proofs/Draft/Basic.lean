import Flowchart.Proofs.Property
import Flowchart.Reading

/-!
Drafts: diagrams in the form in which they are written down. A draft holds what its author chooses,
the labels with their quotes and the word for the direction included; it has a text, and a diagram
that does not depend on how a text is read. Whatever is in a draft can be written: the texts in it
do not hold the marks around them.
-/
namespace Flowchart

/-- None of the marks stands in the text. -/
def Text.Free (marks : List Char) (text : Text) : Prop := ∀ mark ∈ marks, mark ∉ text

-- By way of the marks: there are too many characters to go through.
instance (marks : List Char) (text : Text) : Decidable (Text.Free marks text) :=
  List.decidableBAll _ marks

theorem Text.Free.append {marks : List Char} {front back : Text} (free : Free marks front)
    (also : Free marks back) : Free marks (front ++ back) := by
  intro mark known member
  rcases List.mem_append.mp member with before | behind
  · exact free mark known before
  · exact also mark known behind

/-- A text that shows something and is free of some marks. -/
structure Phrase (marks : List Char) where
  text : Text
  nonempty : text ≠ []
  trimmed : Text.Trimmed text
  free : Text.Free marks text

namespace Draft

abbrev Title := Phrase ['\n']

def Caption.marks : List Char := ['<', '>', '\n']

/-- The label of an edge. It is kept as it is written, quotes and colons included. -/
abbrev Caption := Phrase Caption.marks

def Value.marks : List Char := ',' :: ']' :: Caption.marks

/-- The value of a property. -/
abbrev Value := Phrase Value.marks

/-- The words that make a line something else than a declaration. -/
def keywords : List Text := ["title".toList, "direction".toList]

def Quoting.marks : List Char := ['\x22', '\x27']

def Label.marks : List Char :=
  ['[', ']', '\x7b', '\x7d', ':', ','] ++ Quoting.marks ++ Caption.marks

/-- The label of a node or a group. -/
structure Label extends Phrase Label.marks where
  comment : ¬"//".toList <+: text
  keyword : ∀ word ∈ keywords, text ≠ word ∧ ¬word ++ [' '] <+: text

inductive Quoting where
  | bare
  | double
  | single
  deriving DecidableEq, Repr

def Quoting.mark : Quoting → Text
  | bare => []
  | double => ['\x22']
  | single => ['\x27']

structure Name where
  label : Label
  quoting : Quoting

namespace Name

def written (name : Name) : Text := name.quoting.mark ++ name.label.text ++ name.quoting.mark

def id (name : Name) : Ident := Ident.ofLabel name.label.text

end Name

/-- The entry of a property that is given. -/
def entry (key : Text) (value : Option Value) : List (Text × Text) :=
  (value.map fun phrase => (key, phrase.text)).toList

/-- Properties in brackets, with a space in front; nothing without properties. -/
def bracketed (entries : List (Text × Text)) : Text :=
  if entries = [] then [] else " [".toList ++ Property.write entries ++ [']']

end Draft

open Draft

structure NodeDraft where
  name : Name
  shape : Option Value
  color : Option Value
  icon : Option Value

namespace NodeDraft

def entries (draft : NodeDraft) : List (Text × Text) :=
  entry "shape".toList draft.shape ++ entry "color".toList draft.color ++
    entry "icon".toList draft.icon

def line (draft : NodeDraft) : Text := draft.name.written ++ bracketed draft.entries

def node (draft : NodeDraft) : Node where
  id := draft.name.id
  label := draft.name.label.text
  shape := draft.shape.map (·.text)
  color := draft.color.map (·.text)
  icon := draft.icon.map (·.text)

/-- The row in the table of nodes. -/
def row (draft : NodeDraft) : Ident × Node := (draft.name.id, draft.node)

end NodeDraft

structure GroupDraft where
  name : Name
  color : Option Value
  icon : Option Value
  members : List NodeDraft

namespace GroupDraft

def entries (draft : GroupDraft) : List (Text × Text) :=
  entry "color".toList draft.color ++ entry "icon".toList draft.icon

def opening (draft : GroupDraft) : Text :=
  draft.name.written ++ bracketed draft.entries ++ " \x7b".toList

def lines (draft : GroupDraft) : List Text :=
  draft.opening :: draft.members.map NodeDraft.line ++ [Line.closeMark]

def group (draft : GroupDraft) : Group where
  id := draft.name.id
  label := draft.name.label.text
  members := draft.members.map (·.name.id)
  color := draft.color.map (·.text)
  icon := draft.icon.map (·.text)

end GroupDraft

inductive ItemDraft where
  | node (draft : NodeDraft)
  | group (draft : GroupDraft)

namespace ItemDraft

def lines : ItemDraft → List Text
  | node draft => [draft.line]
  | group draft => draft.lines

/-- The nodes, members of a group included. -/
def nodes : ItemDraft → List NodeDraft
  | node draft => [draft]
  | group draft => draft.members

def groups : ItemDraft → List Group
  | node _ => []
  | group draft => [draft.group]

end ItemDraft

structure EdgeDraft where
  source : Name
  target : Name
  caption : Option Caption

namespace EdgeDraft

/-- The right side of the arrow. -/
def operand (draft : EdgeDraft) : Text :=
  draft.target.written ++
    match draft.caption with
    | none => []
    | some caption => ": ".toList ++ caption.text

def line (draft : EdgeDraft) : Text := draft.source.written ++ " > ".toList ++ draft.operand

def edge (draft : EdgeDraft) : Edge where
  source := draft.source.id
  target := draft.target.id
  label := draft.caption.map (·.text)

end EdgeDraft

/-- No two nodes share their identifier, in groups or outside; the groups may. -/
structure Draft where
  title : Option Title
  direction : Direction
  /-- One of the words for the direction, in any case. -/
  word : Text
  known : (Text.lower word, direction) ∈ Direction.keywords
  items : List ItemDraft
  edges : List EdgeDraft
  distinct : ((items.flatMap ItemDraft.nodes).map (·.name.id)).Nodup

namespace Draft

def titleLine (title : Title) : Text := Line.titleMark ++ title.text

def directionLine (draft : Draft) : Text := Line.directionMark ++ draft.word

def lines (draft : Draft) : List Text :=
  draft.title.toList.map titleLine ++ [draft.directionLine] ++
    draft.items.flatMap ItemDraft.lines ++ draft.edges.map EdgeDraft.line

def text (draft : Draft) : Text := Text.unlines draft.lines

def diagram (draft : Draft) : Diagram where
  direction := draft.direction.code
  title := draft.title.map (·.text)
  nodes := (draft.items.flatMap ItemDraft.nodes).map NodeDraft.row
  edges := draft.edges.map EdgeDraft.edge
  groups := draft.items.flatMap ItemDraft.groups

end Draft

end Flowchart
