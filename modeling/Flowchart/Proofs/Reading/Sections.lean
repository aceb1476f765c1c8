import Flowchart.Proofs.Line
import Flowchart.Reading
import Mathlib.Data.List.Induction

/-!
What each line gives to the diagram. Titles, directions, nodes and edges are taken from their own
lines alone; the group that is open never gets into them. Lines of one kind can be put in or left
out without a change in what the other kinds give.
-/
namespace Flowchart

theorem Direction.ofWord?_trim (word : Text) :
    ofWord? (Text.trim word) = ofWord? word := by
  rw [ofWord?, ofWord?, Text.trimmed_trim word]

namespace Line

/-- The node that a line declares, unless its label holds an arrow. -/
def node? (line : Text) : Option Node :=
  if kind line = .node then
    ((Declaration.node? line).filter (!hasArrow ·.label)).map Declaration.node
  else none

def edges (line : Text) : List Edge := if kind line = .relationship then Chain.edges line else []

def title? (line : Text) : Option Text :=
  if kind line = .title then some (Text.trim (line.drop titleMark.length)) else none

/-- A word that is no direction stands for the standard one. -/
def direction? (line : Text) : Option Direction :=
  if kind line = .direction then
    some ((Direction.ofWord? (line.drop directionMark.length)).getD .standard)
  else none

/-- The declaration of a group that a line opens and that can be read. -/
def opening? (line : Text) : Option Declaration :=
  if kind line = .groupOpen then Declaration.group? line else none

def closes (line : Text) : Bool := line == closeMark

/-- The group that is open after a line. -/
def groupAfter (line : Text) (before : Option Group) : Option Group :=
  if closes line then none
  else
    match opening? line with
    | some declaration => some declaration.group
    | none =>
      match node? line with
      | some node => before.map (·.addMember node.id)
      | none => before

/-- The lines of a source that are not of a kind. -/
def without (kind : Kind) (source : Text) : List Text :=
  (ofSource source).filter (Line.kind · ≠ kind)

theorem kind_closeMark : kind closeMark = .groupClose := by decide

theorem closes_eq (line : Text) : closes line = decide (kind line = .groupClose) := by
  by_cases shape : kind line = .groupClose
  · rw [eq_closeMark shape]
    rfl
  · have other : line ≠ closeMark := by
      rintro rfl
      exact shape kind_closeMark
    rw [decide_eq_false shape]
    exact beq_false_of_ne other

theorem closes_eq_false {line : Text} (other : kind line ≠ .groupClose) : closes line = false := by
  rw [closes_eq, decide_eq_false other]

end Line

/-- A group without its members. -/
def Group.outline (group : Group) : Group := { group with members := [] }

namespace Reading

/-- What one line does: every part of the reading goes on from what it was and from the line. -/
theorem apply_ofLine (reading : Reading) (line : Text) :
    reading.apply (Statement.ofLine line) =
      { diagram :=
          { direction := ((Line.direction? line).map Direction.code).getD reading.diagram.direction
            title := (Line.title? line).or reading.diagram.title
            nodes := reading.diagram.nodes.merge
              ((Line.node? line).map fun node => (node.id, node)).toList
            edges := reading.diagram.edges ++ Line.edges line
            groups := reading.diagram.groups ++
              if Line.closes line then reading.openGroup.toList else [] }
        openGroup := Line.groupAfter line reading.openGroup } := by
  obtain ⟨diagram, openGroup⟩ := reading
  cases shape : Line.kind line with
  | blank | comment | title | direction | relationship =>
    simp [Statement.ofLine, Line.direction?, Line.title?, Line.node?, Line.edges, Line.opening?,
      Line.groupAfter, Line.closes_eq, shape, Reading.apply, Table.merge, Chain.edges,
      Direction.ofWord?_trim]
  | groupClose =>
    cases openGroup <;>
      simp [Statement.ofLine, Line.direction?, Line.title?, Line.node?, Line.edges,
        Line.groupAfter, Line.closes_eq, shape, Reading.apply, Reading.closeGroup, Table.merge]
  | groupOpen =>
    cases read : Declaration.group? line <;>
      simp [Statement.ofLine, Line.direction?, Line.title?, Line.node?, Line.edges, Line.opening?,
        Line.groupAfter, Line.closes_eq, shape, read, Reading.apply, Table.merge]
  | node =>
    cases read : Declaration.node? line with
    | none =>
      simp [Statement.ofLine, Line.direction?, Line.title?, Line.node?, Line.edges, Line.opening?,
        Line.groupAfter, Line.closes_eq, shape, read, Reading.apply, Table.merge]
    | some declaration =>
      cases arrow : Line.hasArrow declaration.label <;>
        simp [Statement.ofLine, Line.direction?, Line.title?, Line.node?, Line.edges,
          Line.opening?, Line.groupAfter, Line.closes_eq, shape, read, arrow, Option.filter,
          Reading.apply, Reading.addNode, Declaration.node, Table.merge]

/-! ### Whole runs -/

def ofLines (lines : List Text) : Reading := ofStatements (lines.map Statement.ofLine)

theorem ofSource_eq (source : Text) : ofSource source = ofLines (Line.ofSource source) := by
  rw [ofSource, ofLines, Statement.ofSource_eq]

theorem ofLines_concat (lines : List Text) (line : Text) :
    ofLines (lines ++ [line]) = (ofLines lines).apply (Statement.ofLine line) := by
  rw [ofLines, ofLines, ofStatements, ofStatements, List.map_append, List.foldl_append]
  rfl

theorem nodes_ofLines (lines : List Text) :
    (ofLines lines).diagram.nodes =
      Table.ofList ((lines.filterMap Line.node?).map fun node => (node.id, node)) := by
  induction lines using List.reverseRecOn with
  | nil => rfl
  | append_singleton before line ih =>
    rw [ofLines_concat, apply_ofLine, ih, List.filterMap_append, List.map_append]
    cases found : Line.node? line with
    | none => simp [found, Table.merge]
    | some node => simp [found, Table.ofList_concat, Table.merge]

theorem edges_ofLines (lines : List Text) :
    (ofLines lines).diagram.edges = lines.flatMap Line.edges := by
  induction lines using List.reverseRecOn with
  | nil => rfl
  | append_singleton before line ih =>
    rw [ofLines_concat, apply_ofLine, ih, List.flatMap_append, List.flatMap_singleton]

theorem title_ofLines (lines : List Text) :
    (ofLines lines).diagram.title = (lines.filterMap Line.title?).getLast? := by
  induction lines using List.reverseRecOn with
  | nil => rfl
  | append_singleton before line ih =>
    rw [ofLines_concat, apply_ofLine, ih, List.filterMap_append]
    cases found : Line.title? line with
    | none => simp [found]
    | some title => simp [found]

theorem direction_ofLines (lines : List Text) :
    (ofLines lines).diagram.direction =
      ((lines.filterMap Line.direction?).getLast?.getD .standard).code := by
  induction lines using List.reverseRecOn with
  | nil => rfl
  | append_singleton before line ih =>
    rw [ofLines_concat, apply_ofLine, ih, List.filterMap_append]
    cases found : Line.direction? line with
    | none => simp [found]
    | some direction => simp [found]

/-- A part of the reading that goes on by itself, and that the lines left out do not move, is the
same without them. -/
theorem view_filter {σ : Type} (view : Reading → σ) (step : σ → Text → σ) {keep : Text → Bool}
    (follows : ∀ reading line,
      view (reading.apply (Statement.ofLine line)) = step (view reading) line)
    (idle : ∀ state line, keep line = false → step state line = state) (lines : List Text) :
    view (ofLines (lines.filter keep)) = view (ofLines lines) := by
  induction lines using List.reverseRecOn with
  | nil => rfl
  | append_singleton before line ih =>
    rw [ofLines_concat, follows, List.filter_append]
    by_cases kept : keep line = true
    · rw [List.filter_cons_of_pos kept, List.filter_nil, ofLines_concat, follows, ih]
    · rw [List.filter_cons_of_neg kept, List.filter_nil, List.append_nil, ih,
        idle _ line (Bool.eq_false_iff.mpr kept)]

/-- Sources that differ only in lines of one kind give the same, where that kind gives nothing. -/
theorem view_eq_of_without {σ : Type} (view : Reading → σ) (step : σ → Text → σ)
    {kind : Line.Kind}
    (follows : ∀ reading line,
      view (reading.apply (Statement.ofLine line)) = step (view reading) line)
    (idle : ∀ state line, Line.kind line = kind → step state line = state) {source other : Text}
    (same : Line.without kind source = Line.without kind other) :
    view (ofSource source) = view (ofSource other) := by
  have dropped : ∀ state line,
      decide (Line.kind line ≠ kind) = false → step state line = state := by
    intro state line left
    exact idle state line (by simpa using left)
  rw [ofSource_eq, ofSource_eq, ← view_filter view step follows dropped (Line.ofSource source),
    ← view_filter view step follows dropped (Line.ofSource other)]
  exact congrArg (fun lines => view (ofLines lines)) same

section Without

variable {kind : Line.Kind} {source other : Text}

theorem nodes_eq_of_without (same : Line.without kind source = Line.without kind other)
    (foreign : kind ≠ .node) :
    (Diagram.ofSource source).nodes = (Diagram.ofSource other).nodes := by
  apply view_eq_of_without (·.diagram.nodes)
    (fun nodes line => nodes.merge ((Line.node? line).map fun node => (node.id, node)).toList)
    ?_ ?_ same
  · intro reading line
    rw [apply_ofLine]
  · rintro nodes line rfl
    rw [Line.node?, if_neg foreign]
    rfl

theorem edges_eq_of_without (same : Line.without kind source = Line.without kind other)
    (foreign : kind ≠ .relationship) :
    (Diagram.ofSource source).edges = (Diagram.ofSource other).edges := by
  apply view_eq_of_without (·.diagram.edges)
    (fun edges line => edges ++ Line.edges line) ?_ ?_ same
  · intro reading line
    rw [apply_ofLine]
  · rintro edges line rfl
    rw [Line.edges, if_neg foreign, List.append_nil]

theorem title_eq_of_without (same : Line.without kind source = Line.without kind other)
    (foreign : kind ≠ .title) :
    (Diagram.ofSource source).title = (Diagram.ofSource other).title := by
  apply view_eq_of_without (·.diagram.title)
    (fun title line => (Line.title? line).or title) ?_ ?_ same
  · intro reading line
    rw [apply_ofLine]
  · rintro title line rfl
    rw [Line.title?, if_neg foreign, Option.none_or]

theorem direction_eq_of_without (same : Line.without kind source = Line.without kind other)
    (foreign : kind ≠ .direction) :
    (Diagram.ofSource source).direction = (Diagram.ofSource other).direction := by
  apply view_eq_of_without (·.diagram.direction)
    (fun direction line => ((Line.direction? line).map Direction.code).getD direction)
    ?_ ?_ same
  · intro reading line
    rw [apply_ofLine]
  · rintro direction line rfl
    rw [Line.direction?, if_neg foreign]
    rfl

theorem groupAfter_idle {line : Text} (unopened : Line.kind line ≠ .groupOpen)
    (unclosed : Line.kind line ≠ .groupClose) (before : Option Group) :
    Line.groupAfter line before =
      match Line.node? line with
      | some node => before.map (·.addMember node.id)
      | none => before := by
  simp [Line.groupAfter, Line.closes_eq_false unclosed, Line.opening?, unopened]

/-- Groups with their members, from the lines that open, close and fill them. -/
theorem groups_eq_of_without (same : Line.without kind source = Line.without kind other)
    (unopened : kind ≠ .groupOpen) (unclosed : kind ≠ .groupClose) (foreign : kind ≠ .node) :
    (Diagram.ofSource source).groups = (Diagram.ofSource other).groups := by
  have both := view_eq_of_without (fun reading => (reading.diagram.groups, reading.openGroup))
    (fun state line =>
      (state.1 ++ if Line.closes line then state.2.toList else [], Line.groupAfter line state.2))
    ?_ ?_ same
  · exact congrArg Prod.fst both
  · intro reading line
    rw [apply_ofLine]
  · rintro ⟨groups, group⟩ line rfl
    simp [Line.closes_eq_false unclosed, groupAfter_idle unopened unclosed, Line.node?, foreign]

/-- Groups without their members, from the lines that open and close them. -/
theorem outlines_eq_of_without (same : Line.without kind source = Line.without kind other)
    (unopened : kind ≠ .groupOpen) (unclosed : kind ≠ .groupClose) :
    (Diagram.ofSource source).groups.map Group.outline =
      (Diagram.ofSource other).groups.map Group.outline := by
  have both := view_eq_of_without
    (fun reading =>
      (reading.diagram.groups.map Group.outline, reading.openGroup.map Group.outline))
    (fun state line =>
      (state.1 ++ if Line.closes line then state.2.toList else [],
        if Line.closes line then none
        else ((Line.opening? line).map Declaration.group).or state.2))
    ?_ ?_ same
  · exact congrArg Prod.fst both
  · intro reading line
    rw [apply_ofLine]
    cases reading.openGroup <;> cases closed : Line.closes line <;>
      cases opened : Line.opening? line <;> cases declared : Line.node? line <;>
      simp [Line.groupAfter, closed, opened, declared, Group.outline, Group.addMember,
        Declaration.group]
  · rintro ⟨groups, group⟩ line rfl
    simp [Line.closes_eq_false unclosed, Line.opening?, unopened]

end Without

/-- Every part of the diagram but the groups is a function of its own lines, and lines of one kind
can be put in or left out without any change to what the other kinds give; only the members of
groups depend on the nodes. -/
theorem sections_from_own_lines (source : Text) :
    let lines := Line.ofSource source
    let diagram := Diagram.ofSource source
    let accepted := lines.filterMap Line.node?
    diagram.nodes.keys = (accepted.map (·.id)).eraseDups ∧
      (∀ id, diagram.nodes.get? id = accepted.findRev? (·.id == id)) ∧
      diagram.edges = lines.flatMap Line.edges ∧
      diagram.title = (lines.filterMap Line.title?).getLast? ∧
      diagram.direction = ((lines.filterMap Line.direction?).getLast?.getD .standard).code ∧
      ∀ (other : Text) (kind : Line.Kind), Line.without kind source = Line.without kind other →
        (kind ≠ .node → diagram.nodes = (Diagram.ofSource other).nodes) ∧
        (kind ≠ .relationship → diagram.edges = (Diagram.ofSource other).edges) ∧
        (kind ≠ .title → diagram.title = (Diagram.ofSource other).title) ∧
        (kind ≠ .direction → diagram.direction = (Diagram.ofSource other).direction) ∧
        (kind ≠ .groupOpen → kind ≠ .groupClose →
          diagram.groups.map Group.outline = (Diagram.ofSource other).groups.map Group.outline ∧
          (kind ≠ .node → diagram.groups = (Diagram.ofSource other).groups)) := by
  intro lines diagram accepted
  have nodes : diagram.nodes = Table.ofList (accepted.map fun node => (node.id, node)) := by
    rw [← nodes_ofLines, ← ofSource_eq]
    rfl
  refine ⟨?_, ?_, ?_, ?_, ?_, ?_⟩
  · rw [nodes, Table.keys_ofList, List.map_map]
    rfl
  · intro id
    rw [nodes, Table.get?_ofList, List.findRev?_eq_find?_reverse, List.findRev?_eq_find?_reverse,
      ← List.map_reverse, List.find?_map, Option.map_map]
    exact Option.map_id'
  · rw [← edges_ofLines, ← ofSource_eq]
    rfl
  · rw [← title_ofLines, ← ofSource_eq]
    rfl
  · rw [← direction_ofLines, ← ofSource_eq]
    rfl
  · intro other kind same
    refine ⟨nodes_eq_of_without same, edges_eq_of_without same, title_eq_of_without same,
      direction_eq_of_without same, ?_⟩
    intro unopened unclosed
    exact ⟨outlines_eq_of_without same unopened unclosed,
      groups_eq_of_without same unopened unclosed⟩

end Reading

end Flowchart
