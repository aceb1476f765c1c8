import Flowchart.Proofs.Lint.Dangling
import Flowchart.Proofs.Mermaid.Rows
import Flowchart.Proofs.Mermaid.Unique

/-!
Charts of sources without diagnostics, row by row. Every identifier in a row belongs to a label that
the source declares, and a label in quotation marks is all that can bring further ones into its row.
-/
namespace Flowchart

open Mermaid (indent inQuotes)

namespace Visible

/-! ### Labels in quotation marks -/

/-- The label stands between two quotation marks, and outside of them there are no others. -/
def Encloses (text label : Text) : Prop :=
  ∃ front back, text = front ++ inQuotes label ++ back ∧ '\x22' ∉ front ∧ '\x22' ∉ back

theorem Encloses.count {text label : Text} (encloses : Encloses text label) :
    text.count '\x22' = label.count '\x22' + 2 := by
  obtain ⟨front, back, rfl, before, behind⟩ := encloses
  have front := List.count_eq_zero.mpr before
  have back := List.count_eq_zero.mpr behind
  simp [inQuotes, front, back]

theorem Box.Safe.encloses {box : Box} (safe : box.Safe) : Encloses box.line box.label := by
  obtain ⟨opening, closing⟩ := brackets_no_quote safe.brackets
  refine ⟨indent ++ box.id ++ box.brackets.1, box.brackets.2, rfl, ?_, closing⟩
  simp [indent, safe.id.not_mem (c := '\x22') rfl, opening]

theorem Frame.Safe.encloses {frame : Frame} (safe : frame.Safe) :
    Encloses (Row.opening frame).text frame.label := by
  refine ⟨indent ++ "subgraph ".toList ++ frame.id ++ ['['], [']'], rfl, ?_, by decide⟩
  simp [indent, safe.id.not_mem (c := '\x22') rfl]

theorem encloses_edgeLine {edge : Edge} (sound : edge.Sound) {label : Text}
    (labelled : Mermaid.filled edge.label = some label) :
    Encloses (Mermaid.edgeLine edge) label := by
  refine ⟨indent ++ edge.source ++ " -->|".toList, "| ".toList ++ edge.target, ?_, ?_,
    target_no_quote sound⟩
  · rw [Mermaid.edgeLine, labelled]
    simp only [List.append_assoc]
  · simp [indent, sound.source_spelled.not_mem (c := '\x22') rfl]

theorem Safe.encloses {visible : Visible} (safe : visible.Safe) :
    ∀ row ∈ visible.rows, ∀ label, row.quoted? = some label → Encloses row.text label := by
  apply forall_mem_rows
  case bare =>
    intro row _ plain label shown
    rw [plain] at shown
    contradiction
  case box =>
    intro box known label shown
    rw [← Option.some.inj shown]
    exact (safe.boxes box known).encloses
  case opening =>
    intro frame known label shown
    rw [← Option.some.inj shown]
    exact (safe.frames frame known).encloses
  case edge =>
    intro edge known label shown
    exact encloses_edgeLine (safe.edges edge known) shown
  case member | boxFill | frameFill =>
    intros
    contradiction

end Visible

namespace Diagram

/-- The labels of nodes and groups. -/
def labels (diagram : Diagram) : List Text :=
  diagram.nodes.values.map (·.label) ++ diagram.groups.map (·.label)

/-- The identifier of one of the labels. -/
def Names (diagram : Diagram) (id : Ident) : Prop :=
  ∃ label ∈ diagram.labels, id = Ident.ofLabel label

variable {diagram : Diagram}

theorem names_node (sound : diagram.Sound) {node : Node} (known : node ∈ diagram.nodes.values) :
    diagram.Names node.id := by
  have label : node.label ∈ diagram.labels :=
    List.mem_append_left _ (List.mem_map.mpr ⟨node, known, rfl⟩)
  exact ⟨node.label, label, (sound.node_of_mem_values known).id⟩

theorem names_group (sound : diagram.Sound) {group : Group} (known : group ∈ diagram.groups) :
    diagram.Names group.id := by
  have label : group.label ∈ diagram.labels :=
    List.mem_append_right _ (List.mem_map.mpr ⟨group, known, rfl⟩)
  exact ⟨group.label, label, (sound.groups group known).id⟩

theorem names_key (sound : diagram.Sound) {id : Ident} (known : id ∈ diagram.nodes.keys) :
    diagram.Names id := by
  obtain ⟨entry, member, rfl⟩ := List.mem_map.mp known
  have node := names_node sound (List.mem_map.mpr ⟨entry, member, rfl⟩)
  rwa [(sound.nodes entry member).1] at node

/-- Where both ends of every edge are declared, each identifier in the chart belongs to a label. -/
theorem names_of_mem_ids (sound : diagram.Sound)
    (declared : ∀ edge ∈ diagram.edges, ∀ id ∈ edge.ends, id ∈ diagram.nodes.keys) :
    ∀ row ∈ diagram.visible.rows, ∀ id ∈ row.ids, diagram.Names id := by
  apply Visible.forall_mem_rows
  case bare =>
    intro row plain _ id member
    rw [plain] at member
    contradiction
  case box =>
    intro box shown id member
    obtain ⟨node, known, rfl⟩ := List.mem_map.mp shown
    rw [List.mem_singleton.mp member]
    exact names_node sound known
  case opening =>
    intro frame shown id member
    obtain ⟨group, known, rfl⟩ := List.mem_map.mp shown
    rw [List.mem_singleton.mp member]
    exact names_group sound known
  case member =>
    intro frame shown other inside id member
    obtain ⟨group, known, rfl⟩ := List.mem_map.mp shown
    rw [List.mem_singleton.mp member]
    exact names_key sound ((sound.groups group known).members other inside)
  case edge =>
    intro edge known id member
    exact names_key sound (declared edge known id member)
  case boxFill =>
    intro fill shown id member
    obtain ⟨node, known, filled⟩ := List.mem_filterMap.mp shown
    obtain ⟨color, _, rfl⟩ := Option.map_eq_some_iff.mp filled
    rw [List.mem_singleton.mp member]
    exact names_node sound known
  case frameFill =>
    intro fill shown id member
    obtain ⟨group, known, filled⟩ := List.mem_filterMap.mp shown
    obtain ⟨color, _, rfl⟩ := Option.map_eq_some_iff.mp filled
    rw [List.mem_singleton.mp member]
    exact names_group sound known

end Diagram

namespace Lint

/-- Without diagnostics every end of an edge is the identifier of a node. -/
theorem ends_declared {source : Text} (clean : lint source = []) :
    ∀ edge ∈ (Diagram.ofSource source).edges, ∀ id ∈ edge.ends,
      id ∈ (Diagram.ofSource source).nodes.keys := by
  have read : Diagram.ofSource source = (Reading.ofLines (Line.ofSource source)).diagram := by
    rw [← Reading.ofSource_eq]
    rfl
  have reports := filter_lint_undeclared source
  rw [clean, List.filter_nil, eq_comm, List.map_eq_nil_iff, List.filter_eq_nil_iff] at reports
  rw [read]
  intro edge known id member
  have listed : id ∈ (Line.numberedEnds (Line.ofSource source)).map (·.1) := by
    rw [Line.numberedEnds_fst]
    exact List.mem_flatMap.mpr ⟨edge, known, member⟩
  obtain ⟨place, numbered, rfl⟩ := List.mem_map.mp listed
  simpa using reports place numbered

/-- A source without diagnostics compiles to the rows of its chart, line by line. Every identifier
in a row keeps to the alphabet of identifiers, is no keyword and belongs to the label of a node or a
group; it is empty only if that label has no letter and no digit of ASCII. A label in quotation
marks stands between the only two of its row, unless it brings some of its own. -/
theorem clean_rows (source : Text) (clean : lint source = []) :
    let diagram := Diagram.ofSource source
    let rows := diagram.visible.rows
    Text.lines (compile source) = rows.map Visible.Row.text ∧
      (∀ row ∈ rows, ∀ id ∈ row.ids, Ident.Spelled id ∧ id ∉ Ident.reserved ∧
        ∃ label ∈ diagram.labels, id = Ident.ofLabel label ∧
          (id = [] ↔ ∀ c ∈ label, c.isAlphanum = false)) ∧
      ∀ row ∈ rows, ∀ label, row.quoted? = some label →
        Visible.Encloses row.text label ∧ (row.text.count '\x22' = 2 ↔ '\x22' ∉ label) := by
  intro diagram rows
  have sound : diagram.Sound := Diagram.sound_ofSource source
  have safe : diagram.visible.Safe := sound.visible_safe
  refine ⟨?_, ?_, ?_⟩
  · rw [compile, Mermaid.render, Diagram.lines_visible, Visible.text_rows]
    exact Text.lines_unlines safe.single_line (List.cons_ne_nil _ _)
  · intro row known id member
    obtain ⟨label, listed, rfl⟩ := Diagram.names_of_mem_ids sound (ends_declared clean) row known
      id member
    exact ⟨Ident.ofLabel_spelled label, Ident.ofLabel_not_reserved label, label, listed, rfl,
      Ident.ofLabel_eq_nil⟩
  · intro row known label shown
    have encloses := safe.encloses row known label shown
    refine ⟨encloses, ?_⟩
    rw [encloses.count, ← List.count_eq_zero]
    omega

/-- A label in two words with quotation marks around the second, an icon with one mark, and an edge
between the two: the linter has nothing to say, and each label brings its own marks. -/
theorem clean_rows_of_marks :
    let source := Text.unlines ["Say \x22hi\x22 now [icon: \x22]".toList, "G \x7b".toList,
      "-".toList, "\x7d".toList, "- > Say \x22hi\x22 now: \x22ok\x22".toList]
    let diagram := Diagram.ofSource source
    let rows := diagram.visible.rows
    lint source = [] ∧ Text.lines (compile source) = rows.map Visible.Row.text ∧
      (∀ row ∈ rows, ∀ id ∈ row.ids, Ident.Spelled id ∧ id ∉ Ident.reserved ∧
        ∃ label ∈ diagram.labels, id = Ident.ofLabel label ∧
          (id = [] ↔ ∀ c ∈ label, c.isAlphanum = false)) ∧
      ∀ row ∈ rows, ∀ label, row.quoted? = some label →
        Visible.Encloses row.text label ∧ (row.text.count '\x22' = 2 ↔ '\x22' ∉ label) := by
  have clean : lint (Text.unlines ["Say \x22hi\x22 now [icon: \x22]".toList, "G \x7b".toList,
      "-".toList, "\x7d".toList, "- > Say \x22hi\x22 now: \x22ok\x22".toList]) = [] := by
    decide +kernel
  exact ⟨clean, clean_rows _ clean⟩

/-- Neither are identifiers always filled where the linter is silent, nor are there always two
quotation marks around a label: both fail for a label of three marks. -/
theorem clean_rows_not_tight :
    (¬∀ source, lint source = [] → ∀ row ∈ (Diagram.ofSource source).visible.rows,
      ∀ id ∈ row.ids, id ≠ [] ∧ Ident.Spelled id) ∧
    ¬∀ source, lint source = [] → ∀ row ∈ (Diagram.ofSource source).visible.rows,
      ∀ label, row.quoted? = some label → row.text.count '\x22' = 2 := by
  let source : Text := "?\x22?".toList
  have clean : lint source = [] := by decide +kernel
  have known : .box ⟨[], Shape.rectangle, source⟩ ∈ (Diagram.ofSource source).visible.rows := by
    decide
  constructor
  · intro filled
    exact (filled source clean _ known [] (by decide)).1 rfl
  · intro quoted
    have three := quoted source clean _ known source rfl
    exact absurd three (by decide)

end Lint

end Flowchart
