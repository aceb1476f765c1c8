import Flowchart.Proofs.Draft.Lines

/-!
Reading a draft gives back its diagram. Each item and each edge leaves the reading without an open
group, with its own nodes, groups and edges behind those before it.
-/
namespace Flowchart

open Draft

namespace Reading

/-- The reading after some more lines. -/
def after (reading : Reading) (lines : List Text) : Reading :=
  lines.foldl (fun reading line => reading.apply (Statement.ofLine line)) reading

theorem after_cons (reading : Reading) (line : Text) (more : List Text) :
    reading.after (line :: more) = (reading.apply (Statement.ofLine line)).after more := rfl

theorem after_append (reading : Reading) (lines more : List Text) :
    reading.after (lines ++ more) = (reading.after lines).after more := List.foldl_append

theorem ofLines_eq_after (lines : List Text) : ofLines lines = after {} lines := by
  rw [ofLines, ofStatements, List.foldl_map, after]

theorem after_members (diagram : Diagram) (group : Group) (members : List NodeDraft) :
    after ⟨diagram, some group⟩ (members.map NodeDraft.line) =
      ⟨{ diagram with nodes := diagram.nodes.merge (members.map NodeDraft.row) },
        some { group with members := group.members ++ members.map (·.name.id) }⟩ := by
  induction members generalizing diagram group with
  | nil => simp [after, Table.merge]
  | cons member rest ih =>
    have step : apply ⟨diagram, some group⟩ (Statement.ofLine member.line) =
        ⟨{ diagram with nodes := diagram.nodes.put member.name.id member.node },
          some (group.addMember member.name.id)⟩ := by
      rw [member.ofLine_line, apply, member.node_declaration]
      rfl
    rw [List.map_cons, after_cons, step, ih]
    simp [Table.merge, NodeDraft.row, Group.addMember]

theorem after_item (diagram : Diagram) (item : ItemDraft) :
    after ⟨diagram, none⟩ item.lines =
      ⟨{ diagram with
          nodes := diagram.nodes.merge (item.nodes.map NodeDraft.row)
          groups := diagram.groups ++ item.groups }, none⟩ := by
  cases item with
  | node draft =>
    have step : apply ⟨diagram, none⟩ (Statement.ofLine draft.line) =
        ⟨{ diagram with nodes := diagram.nodes.put draft.name.id draft.node }, none⟩ := by
      rw [draft.ofLine_line, apply, draft.node_declaration]
      rfl
    simp [ItemDraft.lines, ItemDraft.nodes, ItemDraft.groups, after, step, Table.merge,
      NodeDraft.row]
  | group draft =>
    have opened : apply ⟨diagram, none⟩ (Statement.ofLine draft.opening) =
        ⟨diagram, some draft.group.outline⟩ := by
      rw [draft.ofLine_opening, apply, draft.group_declaration]
    have filled := after_members diagram draft.group.outline draft.members
    have whole : { draft.group.outline with
        members := draft.group.outline.members ++ draft.members.map (·.name.id) } =
        draft.group := rfl
    rw [whole] at filled
    have closed (diagram : Diagram) (group : Group) :
        after ⟨diagram, some group⟩ [Line.closeMark] =
          ⟨{ diagram with groups := diagram.groups ++ [group] }, none⟩ := rfl
    rw [ItemDraft.lines, GroupDraft.lines, List.cons_append, after_cons, opened, after_append,
      filled, closed]
    rfl

theorem after_items (diagram : Diagram) (items : List ItemDraft) :
    after ⟨diagram, none⟩ (items.flatMap ItemDraft.lines) =
      ⟨{ diagram with
          nodes := diagram.nodes.merge ((items.flatMap ItemDraft.nodes).map NodeDraft.row)
          groups := diagram.groups ++ items.flatMap ItemDraft.groups }, none⟩ := by
  induction items generalizing diagram with
  | nil => simp [after, Table.merge]
  | cons item rest ih =>
    rw [List.flatMap_cons, after_append, after_item, ih]
    simp [Table.merge]

theorem after_edges (diagram : Diagram) (edges : List EdgeDraft) :
    after ⟨diagram, none⟩ (edges.map EdgeDraft.line) =
      ⟨{ diagram with edges := diagram.edges ++ edges.map EdgeDraft.edge }, none⟩ := by
  induction edges generalizing diagram with
  | nil => simp [after]
  | cons edge rest ih =>
    have step : apply ⟨diagram, none⟩ (Statement.ofLine edge.line) =
        ⟨{ diagram with edges := diagram.edges ++ [edge.edge] }, none⟩ := by
      rw [edge.ofLine_line, apply, List.map_singleton, edge.edge_link]
    rw [List.map_cons, after_cons, step, ih]
    simp

end Reading

/-- What is written for a draft is read as its diagram: title, direction, nodes, edges and groups
are exactly those of the draft, in its order, and no group is left open. -/
theorem Draft.ofSource_text (draft : Draft) :
    Reading.ofSource draft.text = { diagram := draft.diagram } := by
  have lines : Line.ofSource draft.text = draft.lines :=
    Line.ofSource_unlines draft.lines_clean (by simp [Draft.lines])
  have titled : Reading.after {} (draft.title.toList.map titleLine) =
      ⟨{ title := draft.title.map (·.text) }, none⟩ := by
    cases draft.title with
    | none => rfl
    | some title => simp [Reading.after, ofLine_titleLine, Reading.apply]
  have directed (diagram : Diagram) : Reading.after ⟨diagram, none⟩ [draft.directionLine] =
      ⟨{ diagram with direction := draft.direction.code }, none⟩ := by
    simp [Reading.after, draft.ofLine_directionLine, Reading.apply, draft.ofWord?_word]
  have nodes : Table.ofList ((draft.items.flatMap ItemDraft.nodes).map NodeDraft.row) =
      (draft.items.flatMap ItemDraft.nodes).map NodeDraft.row := by
    apply Table.ofList_of_nodup
    rw [List.map_map]
    exact draft.distinct
  rw [Reading.ofSource_eq, lines, Reading.ofLines_eq_after, Draft.lines, Reading.after_append,
    Reading.after_append, Reading.after_append, titled, directed, Reading.after_items,
    Reading.after_edges, ← Table.ofList, nodes]
  rfl

/-- A draft with a quoted group and a label with quotes. -/
theorem Draft.ofSource_text_of_plan : ∃ draft : Draft, Text.lines draft.text =
      ["title Plan: A".toList, "direction Right".toList, "Start [shape: oval, icon: a:b]".toList,
        "'Team' \x7b".toList, "\x22Last step\x22".toList, "\x7d".toList,
        "'Start' > Last step: \x22go\x22".toList] ∧
    Reading.ofSource draft.text = { diagram := draft.diagram } := by
  let start : Label := ⟨⟨"Start".toList, by decide, rfl, by decide⟩, by decide, by decide⟩
  let team : Label := ⟨⟨"Team".toList, by decide, rfl, by decide⟩, by decide, by decide⟩
  let last : Label := ⟨⟨"Last step".toList, by decide, rfl, by decide⟩, by decide, by decide⟩
  let oval : Value := ⟨"oval".toList, by decide, rfl, by decide⟩
  let icon : Value := ⟨"a:b".toList, by decide, rfl, by decide⟩
  let group : GroupDraft := ⟨⟨team, .single⟩, none, none, [⟨⟨last, .double⟩, none, none, none⟩]⟩
  let plan : Draft := {
    title := some ⟨"Plan: A".toList, by decide, rfl, by decide⟩
    direction := .leftRight
    word := "Right".toList
    known := by decide
    items := [.node ⟨⟨start, .bare⟩, some oval, none, some icon⟩, .group group]
    edges := [⟨⟨start, .single⟩, ⟨last, .bare⟩,
      some ⟨"\x22go\x22".toList, by decide, rfl, by decide⟩⟩]
    distinct := by decide }
  exact ⟨plan, by decide, plan.ofSource_text⟩

end Flowchart
