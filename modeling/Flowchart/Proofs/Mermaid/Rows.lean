import Flowchart.Proofs.Mermaid.Parts

/-!
The rows of a chart: its lines, each with what it shows. What holds of the rows of every part holds
of the whole chart.
-/
namespace Flowchart

open Mermaid (indent inQuotes)

namespace Visible

/-- One line of a chart, by what it shows. -/
inductive Row where
  | header (direction : Text)
  | title (text : Text)
  | box (box : Box)
  | blank
  | opening (frame : Frame)
  | member (id : Ident)
  | closing
  | edge (edge : Edge)
  | boxFill (fill : Fill)
  | frameFill (fill : Fill)
  deriving DecidableEq, Repr

namespace Row

def text : Row → Text
  | header word => "flowchart ".toList ++ word
  | title words => indent ++ "%% ".toList ++ words
  | box shown => shown.line
  | blank => []
  | opening frame =>
    indent ++ "subgraph ".toList ++ frame.id ++ ['['] ++ inQuotes frame.label ++ [']']
  | member id => indent ++ indent ++ id
  | closing => frameEnd
  | edge shown => Mermaid.edgeLine shown
  | boxFill fill => fill.boxLine
  | frameFill fill => fill.frameLine

/-- The identifiers in a row. -/
def ids : Row → List Ident
  | box shown => [shown.id]
  | opening frame => [frame.id]
  | member id => [id]
  | edge shown => shown.ends
  | boxFill fill | frameFill fill => [fill.id]
  | header _ | title _ | blank | closing => []

/-- The label that a row has in quotation marks. -/
def quoted? : Row → Option Text
  | box shown => some shown.label
  | opening frame => some frame.label
  | edge shown => Mermaid.filled shown.label
  | _ => none

/-- Rows after an empty one, if there are any. -/
def spaced : List Row → List Row
  | [] => []
  | row :: rest => blank :: row :: rest

theorem text_spaced (rows : List Row) :
    (spaced rows).map text = Mermaid.spaced (rows.map text) := by
  cases rows <;> rfl

theorem mem_of_mem_spaced {rows : List Row} {row : Row} (member : row ∈ spaced rows) :
    row = blank ∨ row ∈ rows := by
  cases rows with
  | nil => contradiction
  | cons first rest => exact List.mem_cons.mp member

end Row

def Frame.rows (frame : Frame) : List Row :=
  .opening frame :: frame.members.map .member ++ [.closing]

def rows (visible : Visible) : List Row :=
  .header visible.direction :: ((Mermaid.filled visible.title).map .title).toList ++
    visible.boxes.map .box ++ Row.spaced (visible.frames.flatMap Frame.rows) ++
    Row.spaced (visible.edges.map .edge) ++
    Row.spaced (visible.boxFills.map .boxFill ++ visible.frameFills.map .frameFill)

theorem text_rows (visible : Visible) : visible.rows.map Row.text = visible.lines := by
  have frames : (visible.frames.flatMap Frame.rows).map Row.text =
      visible.frames.flatMap fun frame => frame.body ++ [frameEnd] := by
    rw [List.map_flatMap]
    apply List.flatMap_congr
    intro frame _
    simp only [Frame.rows, Frame.body, List.map_append, List.map_cons, List.map_map,
      List.cons_append]
    rfl
  have title : ((Mermaid.filled visible.title).map Row.title).toList.map Row.text =
      Mermaid.titleLines visible.title := by
    rw [Mermaid.titleLines]
    cases Mermaid.filled visible.title <;> rfl
  simp only [rows, lines, sections, List.map_append, List.map_cons, Row.text_spaced, frames, title,
    List.map_map, List.cons_append, List.append_assoc]
  rfl

/-- What holds of the rows of every part of a chart holds of all its rows. -/
theorem forall_mem_rows {visible : Visible} {P : Row → Prop}
    (bare : ∀ row : Row, row.ids = [] → row.quoted? = none → P row)
    (box : ∀ box ∈ visible.boxes, P (.box box))
    (opening : ∀ frame ∈ visible.frames, P (.opening frame))
    (member : ∀ frame ∈ visible.frames, ∀ id ∈ frame.members, P (.member id))
    (edge : ∀ edge ∈ visible.edges, P (.edge edge))
    (boxFill : ∀ fill ∈ visible.boxFills, P (.boxFill fill))
    (frameFill : ∀ fill ∈ visible.frameFills, P (.frameFill fill)) :
    ∀ row ∈ visible.rows, P row := by
  have spaced {rows : List Row} (inside : ∀ row ∈ rows, P row) :
      ∀ row ∈ Row.spaced rows, P row := by
    intro row known
    rcases Row.mem_of_mem_spaced known with rfl | later
    · exact bare _ rfl rfl
    · exact inside row later
  have group : ∀ frame ∈ visible.frames, ∀ row ∈ frame.rows, P row := by
    intro frame known row within
    simp only [Frame.rows, List.cons_append, List.mem_cons, List.mem_append, List.mem_map,
      List.not_mem_nil, or_false] at within
    rcases within with rfl | ⟨id, listed, rfl⟩ | rfl
    · exact opening frame known
    · exact member frame known id listed
    · exact bare _ rfl rfl
  have title : ∀ row ∈ ((Mermaid.filled visible.title).map Row.title).toList, P row := by
    intro row known
    obtain ⟨words, _, rfl⟩ := Option.map_eq_some_iff.mp (Option.mem_toList.mp known)
    exact bare _ rfl rfl
  simp only [rows, List.forall_mem_append, List.forall_mem_cons, List.forall_mem_map,
    List.cons_append]
  refine ⟨bare _ rfl rfl, ⟨⟨⟨title, box⟩, ?_⟩, ?_⟩, ?_⟩
  · exact spaced (List.forall_mem_flatMap.mpr group)
  · exact spaced (List.forall_mem_map.mpr edge)
  · apply spaced
    exact List.forall_mem_append.mpr
      ⟨List.forall_mem_map.mpr boxFill, List.forall_mem_map.mpr frameFill⟩

end Visible

/-- A source compiles to the rows of its chart, line by line. -/
theorem lines_compile (source : Text) :
    Text.lines (compile source) = (Diagram.ofSource source).visible.rows.map Visible.Row.text := by
  have safe : (Diagram.ofSource source).visible.Safe := (Diagram.sound_ofSource source).visible_safe
  rw [compile, Mermaid.render, Diagram.lines_visible, Visible.text_rows]
  exact Text.lines_unlines safe.single_line (List.cons_ne_nil _ _)

end Flowchart
