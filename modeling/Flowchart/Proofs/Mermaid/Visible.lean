import Flowchart.Compile
import Flowchart.Proofs.Reading.Soundness

/-!
What a chart shows of a diagram. The markup is a function of the visible content alone, and the
content that comes from a source keeps to texts that cannot break out of their places.
-/
namespace Flowchart

namespace Visible

/-- What shows of a node. -/
@[ext]
structure Box where
  id : Ident
  brackets : Text × Text
  label : Text
  deriving DecidableEq, Repr

/-- What shows of a group. -/
@[ext]
structure Frame where
  id : Ident
  label : Text
  members : List Ident
  deriving DecidableEq, Repr

/-- What shows of the colour of a node or a group. -/
@[ext]
structure Fill where
  id : Ident
  color : Text
  deriving DecidableEq, Repr

end Visible

@[ext]
structure Visible where
  direction : Text
  title : Option Text
  boxes : List Visible.Box
  frames : List Visible.Frame
  edges : List Edge
  boxFills : List Visible.Fill
  frameFills : List Visible.Fill
  deriving DecidableEq, Repr

def Node.box (node : Node) : Visible.Box where
  id := node.id
  brackets := Shape.bracketsOf node.shape
  label := Mermaid.displayLabel node

def Group.frame (group : Group) : Visible.Frame where
  id := group.id
  label := group.label
  members := group.members

def Node.fill? (node : Node) : Option Visible.Fill :=
  (Mermaid.filled node.color).map fun color => ⟨node.id, Color.resolve color⟩

def Group.fill? (group : Group) : Option Visible.Fill :=
  (Mermaid.filled group.color).map fun color => ⟨group.id, Color.resolve color⟩

def Diagram.visible (diagram : Diagram) : Visible where
  direction := diagram.direction
  title := diagram.title
  boxes := diagram.nodes.values.map Node.box
  frames := diagram.groups.map Group.frame
  edges := diagram.edges
  boxFills := diagram.nodes.values.filterMap Node.fill?
  frameFills := diagram.groups.filterMap Group.fill?

/-! ### The lines of the visible content -/

namespace Visible

open Mermaid (indent inQuotes)

def Box.line (box : Box) : Text :=
  indent ++ box.id ++ box.brackets.1 ++ inQuotes box.label ++ box.brackets.2

def frameEnd : Text := indent ++ "end".toList

/-- The lines of a group, up to the one that ends it. -/
def Frame.body (frame : Frame) : List Text :=
  (indent ++ "subgraph ".toList ++ frame.id ++ ['['] ++ inQuotes frame.label ++ [']']) ::
    frame.members.map (indent ++ indent ++ ·)

def Fill.boxLine (fill : Fill) : Text :=
  indent ++ "style ".toList ++ fill.id ++ " fill:".toList ++ fill.color ++ ",stroke:".toList ++
    fill.color ++ ",color:".toList ++ Color.textOn fill.color

def Fill.frameLine (fill : Fill) : Text :=
  indent ++ "style ".toList ++ fill.id ++ " fill:".toList ++ fill.color ++ "20,stroke:".toList ++
    fill.color

/-- The sections behind the nodes. -/
def sections (visible : Visible) : List Text :=
  Mermaid.spaced (visible.frames.flatMap fun frame => frame.body ++ [frameEnd]) ++
    Mermaid.spaced (visible.edges.map Mermaid.edgeLine) ++
    Mermaid.spaced (visible.boxFills.map Fill.boxLine ++ visible.frameFills.map Fill.frameLine)

def lines (visible : Visible) : List Text :=
  ("flowchart ".toList ++ visible.direction) ::
    (Mermaid.titleLines visible.title ++ visible.boxes.map Box.line) ++ visible.sections

end Visible

theorem Mermaid.filled_eq_some {field : Option Text} {text : Text}
    (shown : filled field = some text) : field = some text ∧ text ≠ [] := by
  obtain ⟨same, nonempty⟩ := Option.filter_eq_some_iff.mp shown
  exact ⟨same, by simpa using nonempty⟩

/-- Styles are written for what has a colour, and show the colour only. -/
theorem Mermaid.styles_of_filled {α : Type} {color : α → Option Text} {style : α → Text}
    {fill : α → Text → Visible.Fill} {line : Visible.Fill → Text}
    (agrees : ∀ item text, color item = some text → style item = line (fill item text))
    (items : List α) :
    (items.filter fun item => (filled (color item)).isSome).map style =
      (items.filterMap fun item => (filled (color item)).map (fill item)).map line := by
  induction items with
  | nil => rfl
  | cons item rest ih =>
    cases shown : filled (color item) with
    | none => simp [shown, ih]
    | some text =>
      have here := agrees item text (filled_eq_some shown).1
      rw [List.filter_cons_of_pos (by simp [shown]), List.map_cons, ih, here]
      simp [shown]

theorem Mermaid.nodeStyle_eq (node : Node) (color : Text) (written : node.color = some color) :
    nodeStyle node = Visible.Fill.boxLine ⟨node.id, Color.resolve color⟩ := by
  rw [nodeStyle, written]
  rfl

theorem Mermaid.groupStyle_eq (group : Group) (color : Text) (written : group.color = some color) :
    groupStyle group = Visible.Fill.frameLine ⟨group.id, Color.resolve color⟩ := by
  rw [groupStyle, written]
  rfl

theorem Diagram.lines_visible (diagram : Diagram) :
    Mermaid.lines diagram = diagram.visible.lines := by
  have frames : diagram.groups.flatMap Mermaid.groupLines =
      diagram.visible.frames.flatMap fun frame => frame.body ++ [Visible.frameEnd] := by
    rw [Diagram.visible, List.flatMap_map]
    rfl
  have boxes : diagram.nodes.values.map Mermaid.nodeLine =
      diagram.visible.boxes.map Visible.Box.line := by
    rw [Diagram.visible, List.map_map]
    rfl
  have styles : Mermaid.styles diagram =
      diagram.visible.boxFills.map Visible.Fill.boxLine ++
        diagram.visible.frameFills.map Visible.Fill.frameLine := by
    rw [Mermaid.styles, Mermaid.styles_of_filled Mermaid.nodeStyle_eq,
      Mermaid.styles_of_filled Mermaid.groupStyle_eq]
    rfl
  rw [Mermaid.lines, frames, boxes, styles, Visible.lines, Visible.sections]
  simp only [List.append_assoc, List.cons_append, List.nil_append]
  rfl

/-! ### Content from a source -/

namespace Visible

structure Box.Safe (box : Box) : Prop where
  id : Ident.Spelled box.id
  brackets : box.brackets ∈ Shape.brackets.values
  label : '\n' ∉ box.label

structure Frame.Safe (frame : Frame) : Prop where
  id : Ident.Spelled frame.id
  label : '\n' ∉ frame.label
  members : ∀ id ∈ frame.members, Ident.Spelled id

structure Fill.Safe (fill : Fill) : Prop where
  id : Ident.Spelled fill.id
  comma : ',' ∉ fill.color
  lineFeed : '\n' ∉ fill.color

/-- Content in which no text breaks out of its place. -/
structure Safe (visible : Visible) : Prop where
  direction : '\n' ∉ visible.direction
  title : ∀ text, visible.title = some text → text ≠ [] ∧ '\n' ∉ text
  boxes : ∀ box ∈ visible.boxes, box.Safe
  frames : ∀ frame ∈ visible.frames, frame.Safe
  edges : ∀ edge ∈ visible.edges, edge.Sound
  boxFills : ∀ fill ∈ visible.boxFills, fill.Safe
  frameFills : ∀ fill ∈ visible.frameFills, fill.Safe

end Visible

theorem Shape.bracketsOf_mem (shape : Option Text) : bracketsOf shape ∈ brackets.values := by
  cases found : shape.bind brackets.get? with
  | none =>
    rw [bracketsOf, found]
    exact List.mem_cons_self
  | some pair =>
    obtain ⟨name, _, entry⟩ := Option.bind_eq_some_iff.mp found
    rw [bracketsOf, found]
    exact List.mem_map.mpr ⟨(name, pair), Table.mem_of_get? entry, rfl⟩

/-- A colour stands for a named value or for itself, and neither ends its place. -/
theorem Color.resolve_plain {color : Text} (plain : Property.Plain color) :
    ',' ∉ resolve color ∧ '\n' ∉ resolve color := by
  have values : ∀ entry ∈ named, ',' ∉ entry.2 ∧ '\n' ∉ entry.2 := by decide
  cases found : named.get? (Text.lower color) with
  | none =>
    rw [resolve, found]
    exact ⟨plain.comma, plain.lineFeed⟩
  | some value =>
    rw [resolve, found]
    exact values _ (Table.mem_of_get? found)

namespace Mermaid

theorem displayLabel_single_line {node : Node} (sound : node.Sound) :
    '\n' ∉ displayLabel node := by
  rw [displayLabel]
  split
  · rename_i icon shown
    have present : icon ∈ node.properties := by
      simp [Node.properties, (filled_eq_some shown).1]
    simp [(sound.properties icon present).lineFeed, sound.label.2.2]
  · exact sound.label.2.2

theorem fill_safe {id : Ident} {field : Option Text} {fill : Visible.Fill}
    (spelled : Ident.Spelled id) (plain : ∀ value ∈ field.toList, Property.Plain value)
    (shown : (filled field).map (fun color => ⟨id, Color.resolve color⟩) = some fill) :
    fill.Safe := by
  obtain ⟨color, present, rfl⟩ := Option.map_eq_some_iff.mp shown
  have member : color ∈ field.toList := by simp [(filled_eq_some present).1]
  obtain ⟨comma, feed⟩ := Color.resolve_plain (plain color member)
  exact ⟨spelled, comma, feed⟩

end Mermaid

namespace Diagram.Sound

variable {diagram : Diagram}

theorem node_of_mem_values (sound : diagram.Sound) {node : Node}
    (member : node ∈ diagram.nodes.values) : node.Sound := by
  obtain ⟨entry, known, rfl⟩ := List.mem_map.mp member
  exact (sound.nodes entry known).2

theorem visible_safe (sound : diagram.Sound) : diagram.visible.Safe := by
  constructor
  · exact sound.single_line _ List.mem_cons_self
  · intro text shown
    obtain ⟨nonempty, _, feed⟩ := sound.title text shown
    exact ⟨nonempty, feed⟩
  · intro box member
    obtain ⟨node, known, rfl⟩ := List.mem_map.mp member
    have legal := sound.node_of_mem_values known
    exact ⟨legal.spelled, Shape.bracketsOf_mem _, Mermaid.displayLabel_single_line legal⟩
  · intro frame member
    obtain ⟨group, known, rfl⟩ := List.mem_map.mp member
    have legal := sound.groups group known
    refine ⟨legal.spelled, legal.label, ?_⟩
    intro id inside
    obtain ⟨label, rfl⟩ := sound.key_eq_ofLabel (legal.members id inside)
    exact Ident.ofLabel_spelled label
  · exact sound.edges
  · intro fill member
    obtain ⟨node, known, shown⟩ := List.mem_filterMap.mp member
    have legal := sound.node_of_mem_values known
    apply Mermaid.fill_safe legal.spelled _ shown
    intro value present
    exact legal.properties value (by simp [Node.properties, Option.mem_toList.mp present])
  · intro fill member
    obtain ⟨group, known, shown⟩ := List.mem_filterMap.mp member
    have legal := sound.groups group known
    apply Mermaid.fill_safe legal.spelled _ shown
    intro value present
    exact legal.properties value (by simp [Group.properties, Option.mem_toList.mp present])

end Diagram.Sound

end Flowchart
