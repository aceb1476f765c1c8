import Flowchart.Proofs.Reading.Sections

/-!
Sources put one behind the other. If no group is open at the joint, what is read of both is what is
read of each, the second written over the first.
-/
namespace Flowchart

namespace Line

theorem ofSource_joined (first second : Text) :
    ofSource (first ++ '\n' :: second) = ofSource first ++ ofSource second := by
  rw [ofSource, Text.lines, List.splitOn_append_cons_self, List.map_append]
  rfl

/-- Whether a line of a source sets the direction. -/
def turns (source : Text) : Bool := (ofSource source).any (kind · = .direction)

theorem direction?_isSome (line : Text) :
    (direction? line).isSome = decide (kind line = .direction) := by
  rw [direction?]
  split <;> simp_all

/-- A source without such a line gives no direction. -/
theorem directions_eq_nil {source : Text} (straight : turns source = false) :
    (ofSource source).filterMap direction? = [] := by
  apply List.filterMap_eq_nil_iff.mpr
  intro line member
  have other := List.any_eq_false.mp straight line member
  rw [← direction?_isSome] at other
  exact Option.not_isSome_iff_eq_none.mp other

theorem directions_ne_nil {source : Text} (turning : turns source = true) :
    (ofSource source).filterMap direction? ≠ [] := by
  obtain ⟨line, member, shape⟩ := List.any_eq_true.mp turning
  rw [← direction?_isSome] at shape
  obtain ⟨direction, found⟩ := Option.isSome_iff_exists.mp shape
  exact List.ne_nil_of_mem (List.mem_filterMap.mpr ⟨line, member, found⟩)

end Line

/-- The second diagram written over the first: a node that both have keeps the place of the first
and is the one of the second. Every diagram has a direction, so it has to be told whether that of
the second was asked for. -/
def Diagram.join (first second : Diagram) (turned : Bool) : Diagram where
  direction := if turned then second.direction else first.direction
  title := second.title.or first.title
  nodes := first.nodes.merge second.nodes
  edges := first.edges ++ second.edges
  groups := first.groups ++ second.groups

namespace Reading

variable {lines more : List Text}

theorem nodes_append (lines more : List Text) :
    (ofLines (lines ++ more)).diagram.nodes =
      (ofLines lines).diagram.nodes.merge (ofLines more).diagram.nodes := by
  rw [nodes_ofLines, nodes_ofLines, nodes_ofLines, Table.merge_ofList, List.filterMap_append,
    List.map_append, Table.ofList, Table.merge, List.foldl_append]
  rfl

theorem edges_append (lines more : List Text) :
    (ofLines (lines ++ more)).diagram.edges =
      (ofLines lines).diagram.edges ++ (ofLines more).diagram.edges := by
  rw [edges_ofLines, edges_ofLines, edges_ofLines, List.flatMap_append]

theorem title_append (lines more : List Text) :
    (ofLines (lines ++ more)).diagram.title =
      (ofLines more).diagram.title.or (ofLines lines).diagram.title := by
  rw [title_ofLines, title_ofLines, title_ofLines, List.filterMap_append, List.getLast?_append]

/-- Behind lines that leave no group open, further lines make the groups that they make alone. -/
theorem groups_append (closed : (ofLines lines).openGroup = none) (more : List Text) :
    (ofLines (lines ++ more)).openGroup = (ofLines more).openGroup ∧
      (ofLines (lines ++ more)).diagram.groups =
        (ofLines lines).diagram.groups ++ (ofLines more).diagram.groups := by
  induction more using List.reverseRecOn with
  | nil =>
    rw [List.append_nil]
    exact ⟨closed, (List.append_nil _).symm⟩
  | append_singleton before line ih =>
    obtain ⟨group, groups⟩ := ih
    rw [← List.append_assoc, ofLines_concat, ofLines_concat, apply_ofLine, apply_ofLine, group,
      groups]
    exact ⟨rfl, List.append_assoc _ _ _⟩

theorem direction_join (first second : Text) :
    (ofLines (Line.ofSource first ++ Line.ofSource second)).diagram.direction =
      if Line.turns second then (ofLines (Line.ofSource second)).diagram.direction
      else (ofLines (Line.ofSource first)).diagram.direction := by
  rw [direction_ofLines, direction_ofLines, direction_ofLines, List.filterMap_append,
    List.getLast?_append]
  cases turning : Line.turns second with
  | false => rw [Line.directions_eq_nil turning, if_neg Bool.false_ne_true]; rfl
  | true =>
    have given := mt List.getLast?_eq_none_iff.mp (Line.directions_ne_nil turning)
    obtain ⟨direction, last⟩ := Option.ne_none_iff_exists'.mp given
    rw [last, if_pos rfl]
    rfl

/-- Reading is compatible with putting sources together, where no group is open at the joint: the
diagram of both is that of the second written over that of the first. The nodes of the first keep
their order, those that the second declares again are replaced in their places, and the new ones
follow in the order of the second; edges and groups come one after the other. The title of the
second counts if it has one, and its direction if one of its lines sets it. -/
theorem ofSource_join {first second : Text} (closed : (ofSource first).openGroup = none) :
    let both := ofSource (first ++ '\n' :: second)
    let one := Diagram.ofSource first
    let two := Diagram.ofSource second
    both.diagram = one.join two (Line.turns second) ∧
      both.openGroup = (ofSource second).openGroup ∧
      both.diagram.nodes.keys = one.nodes.keys ++ two.nodes.keys.filter (· ∉ one.nodes.keys) ∧
      ∀ id, both.diagram.nodes.get? id = (two.nodes.get? id).or (one.nodes.get? id) := by
  intro both one two
  have whole : both = ofLines (Line.ofSource first ++ Line.ofSource second) := by
    rw [← Line.ofSource_joined, ← ofSource_eq]
  have front : one = (ofLines (Line.ofSource first)).diagram := by rw [← ofSource_eq]; rfl
  have back : two = (ofLines (Line.ofSource second)).diagram := by rw [← ofSource_eq]; rfl
  rw [ofSource_eq] at closed
  obtain ⟨group, groups⟩ := groups_append closed (Line.ofSource second)
  have nodes : both.diagram.nodes = one.nodes.merge two.nodes := by
    rw [whole, front, back, nodes_append]
  have distinct : two.nodes.keys.Nodup := by
    rw [back, nodes_ofLines]
    exact Table.nodup_keys_ofList _
  refine ⟨?_, ?_, ?_, ?_⟩
  · have edges := edges_append (Line.ofSource first) (Line.ofSource second)
    have title := title_append (Line.ofSource first) (Line.ofSource second)
    have direction := direction_join first second
    rw [← whole, ← front, ← back] at edges title direction groups
    rw [Diagram.join, ← nodes, ← edges, ← title, ← direction, ← groups]
  · rw [whole, group, ofSource_eq]
  · rw [nodes]
    exact Table.keys_merge distinct
  · intro id
    rw [nodes, Table.get?_merge distinct]

/-- The second source declares a node of the first again, and a new one; only the second sets a
direction, and only the first has a title. -/
theorem ofSource_join_redeclaring :
    let first := Text.unlines ["title Old".toList, "A".toList, "B [color: red]".toList,
      "G \x7b".toList, "A".toList, "\x7d".toList]
    let second := Text.unlines ["direction up".toList, "C > B".toList, "C".toList, "B".toList]
    let both := ofSource (first ++ '\n' :: second)
    let one := Diagram.ofSource first
    let two := Diagram.ofSource second
    (ofSource first).openGroup = none ∧
      both.diagram = one.join two (Line.turns second) ∧
      both.openGroup = (ofSource second).openGroup ∧
      both.diagram.nodes.keys = one.nodes.keys ++ two.nodes.keys.filter (· ∉ one.nodes.keys) ∧
      ∀ id, both.diagram.nodes.get? id = (two.nodes.get? id).or (one.nodes.get? id) := by
  have closed : (ofSource (Text.unlines ["title Old".toList, "A".toList,
      "B [color: red]".toList, "G \x7b".toList, "A".toList, "\x7d".toList])).openGroup = none := rfl
  exact ⟨closed, ofSource_join closed⟩

end Reading

end Flowchart
