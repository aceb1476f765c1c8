import Flowchart.Proofs.Line
import Flowchart.Reading

/-!
What holds of a reading whatever the lines were: each identifier comes from its label, the members
of groups are declared, and no text can end the place where it will be written.
-/
namespace Flowchart

/-- The properties that a node has. -/
def Node.properties (node : Node) : List Text :=
  node.shape.toList ++ node.color.toList ++ node.icon.toList

def Group.properties (group : Group) : List Text := group.color.toList ++ group.icon.toList

structure Node.Sound (node : Node) : Prop where
  id : node.id = Ident.ofLabel node.label
  label : '<' ∉ node.label ∧ '>' ∉ node.label ∧ '\n' ∉ node.label
  properties : ∀ value ∈ node.properties, Property.Plain value

theorem Node.Sound.spelled {node : Node} (sound : node.Sound) : Ident.Spelled node.id :=
  sound.id ▸ Ident.ofLabel_spelled node.label

structure Group.Sound (declared : List Ident) (group : Group) : Prop where
  id : group.id = Ident.ofLabel group.label
  label : '\n' ∉ group.label
  members : ∀ id ∈ group.members, id ∈ declared
  properties : ∀ value ∈ group.properties, Property.Plain value

structure Diagram.Sound (diagram : Diagram) : Prop where
  direction : diagram.direction ∈ ["TB".toList, "BT".toList, "LR".toList, "RL".toList]
  title : ∀ text, diagram.title = some text → text ≠ [] ∧ Text.Trimmed text ∧ '\n' ∉ text
  keys : diagram.nodes.keys.Nodup
  nodes : ∀ entry ∈ diagram.nodes, entry.2.id = entry.1 ∧ entry.2.Sound
  edges : ∀ edge ∈ diagram.edges, edge.Sound
  groups : ∀ group ∈ diagram.groups, group.Sound diagram.nodes.keys

/-- Of the group that is still open the same holds as of the closed ones. -/
structure Reading.Sound (reading : Reading) : Prop where
  diagram : reading.diagram.Sound
  openGroup : ∀ group, reading.openGroup = some group → group.Sound reading.diagram.nodes.keys

theorem Direction.code_mem (direction : Direction) :
    direction.code ∈ ["TB".toList, "BT".toList, "LR".toList, "RL".toList] := by
  cases direction <;> decide

namespace Declaration

theorem Sound.get?_plain {declaration : Declaration} (sound : declaration.Sound) {key value : Text}
    (present : value ∈ (declaration.properties.get? key).toList) : Property.Plain value :=
  sound.properties key value (Option.mem_toList.mp present)

theorem node_sound {declaration : Declaration} (sound : declaration.Sound)
    (plain : Line.hasArrow declaration.label = false) : declaration.node.Sound := by
  obtain ⟨noLeft, noRight⟩ := Line.not_mem_of_not_hasArrow plain
  refine ⟨rfl, ⟨noLeft, noRight, sound.label⟩, ?_⟩
  intro value member
  simp only [Node.properties, List.mem_append] at member
  rcases member with (shape | color) | icon
  · exact sound.get?_plain shape
  · exact sound.get?_plain color
  · exact sound.get?_plain icon

theorem group_sound {declaration : Declaration} (sound : declaration.Sound)
    (declared : List Ident) : declaration.group.Sound declared := by
  refine ⟨rfl, sound.label, ?_, ?_⟩
  · intro id member
    exact absurd member List.not_mem_nil
  · intro value member
    rcases List.mem_append.mp member with color | icon
    · exact sound.get?_plain color
    · exact sound.get?_plain icon

end Declaration

namespace Group.Sound

variable {declared : List Ident} {group : Group}

theorem mono {more : List Ident} (sound : group.Sound declared) (kept : declared ⊆ more) :
    group.Sound more := by
  refine ⟨sound.id, sound.label, ?_, sound.properties⟩
  intro id member
  exact kept (sound.members id member)

theorem spelled (sound : group.Sound declared) : Ident.Spelled group.id :=
  sound.id ▸ Ident.ofLabel_spelled group.label

theorem addMember {id : Ident} (sound : group.Sound declared) (known : id ∈ declared) :
    (group.addMember id).Sound declared := by
  refine ⟨sound.id, sound.label, ?_, sound.properties⟩
  intro other member
  rcases List.mem_append.mp member with old | new
  · exact sound.members other old
  · exact List.mem_singleton.mp new ▸ known

end Group.Sound

namespace Reading

theorem sound_empty : ({} : Reading).Sound := by
  refine ⟨⟨Direction.code_mem .standard, ?_, List.nodup_nil, ?_, ?_, ?_⟩, ?_⟩
  · intro text found
    contradiction
  · intro entry member
    exact absurd member List.not_mem_nil
  · intro edge member
    exact absurd member List.not_mem_nil
  · intro group member
    exact absurd member List.not_mem_nil
  · intro group found
    contradiction

namespace Sound

variable {reading : Reading}

theorem closeGroup (sound : reading.Sound) : reading.closeGroup.Sound := by
  unfold Reading.closeGroup
  split
  · exact sound
  · rename_i group shown
    refine ⟨{ sound.diagram with groups := ?_ }, ?_⟩
    · intro other member
      rcases List.mem_append.mp member with old | new
      · exact sound.diagram.groups other old
      · rw [List.mem_singleton.mp new]
        exact sound.openGroup group shown
    · intro other found
      contradiction

theorem addNode (sound : reading.Sound) {node : Node} (legal : node.Sound) :
    (reading.addNode node).Sound := by
  have kept : reading.diagram.nodes.keys ⊆ (reading.diagram.nodes.put node.id node).keys := by
    intro id member
    exact Table.mem_keys_put.mpr (.inr member)
  have known : node.id ∈ (reading.diagram.nodes.put node.id node).keys :=
    Table.mem_keys_put.mpr (.inl rfl)
  refine ⟨{ sound.diagram with keys := ?_, nodes := ?_, groups := ?_ }, ?_⟩
  · exact Table.nodup_keys_put sound.diagram.keys node.id node
  · intro entry member
    rcases Table.mem_of_mem_put member with rfl | old
    · exact ⟨rfl, legal⟩
    · exact sound.diagram.nodes entry old
  · intro group member
    exact (sound.diagram.groups group member).mono kept
  · intro group found
    obtain ⟨before, shown, rfl⟩ := Option.map_eq_some_iff.mp found
    exact ((sound.openGroup before shown).mono kept).addMember known

/-- One step: what a sound statement leaves is sound. -/
theorem apply (sound : reading.Sound) {statement : Statement} (legal : statement.Sound) :
    (reading.apply statement).Sound := by
  cases statement with
  | nothing => exact sound
  | unreadableGroup line => exact sound
  | unspacedArrow line => exact sound
  | close => exact sound.closeGroup
  | title text =>
    refine ⟨{ sound.diagram with title := ?_ }, sound.openGroup⟩
    intro other found
    exact Option.some.inj found ▸ legal
  | direction word =>
    exact ⟨{ sound.diagram with direction := Direction.code_mem _ }, sound.openGroup⟩
  | chain links =>
    refine ⟨{ sound.diagram with edges := ?_ }, sound.openGroup⟩
    intro edge member
    rcases List.mem_append.mp member with old | new
    · exact sound.diagram.edges edge old
    · obtain ⟨link, known, rfl⟩ := List.mem_map.mp new
      exact legal link known
  | group declaration =>
    refine ⟨sound.diagram, ?_⟩
    intro group found
    exact Option.some.inj found ▸ Declaration.group_sound legal _
  | node declaration =>
    exact sound.addNode (Declaration.node_sound legal.1 legal.2)

theorem run (sound : reading.Sound) {statements : List Statement}
    (legal : ∀ statement ∈ statements, statement.Sound) :
    (statements.foldl Reading.apply reading).Sound := by
  induction statements generalizing reading with
  | nil => exact sound
  | cons statement rest ih =>
    have step : (reading.apply statement).Sound := sound.apply (legal statement List.mem_cons_self)
    exact ih step fun other member => legal other (List.mem_cons_of_mem statement member)

end Sound

end Reading

theorem Diagram.sound_ofSource (source : Text) : (Diagram.ofSource source).Sound := by
  have whole : (Reading.ofSource source).Sound :=
    Reading.sound_empty.run fun _ member => Statement.sound_of_mem_ofSource member
  exact whole.diagram

/-! ### The texts of a diagram -/

def Node.texts (node : Node) : List Text := node.id :: node.label :: node.properties

def Edge.texts (edge : Edge) : List Text := edge.source :: edge.target :: edge.label.toList

def Group.texts (group : Group) : List Text :=
  group.id :: group.label :: group.members ++ group.properties

def Diagram.texts (diagram : Diagram) : List Text :=
  diagram.direction :: diagram.title.toList ++ diagram.nodes.keys ++
    diagram.nodes.values.flatMap Node.texts ++ diagram.edges.flatMap Edge.texts ++
    diagram.groups.flatMap Group.texts

def Reading.texts (reading : Reading) : List Text :=
  reading.diagram.texts ++ reading.openGroup.toList.flatMap Group.texts

theorem Node.Sound.single_line {node : Node} (sound : node.Sound) :
    ∀ text ∈ node.texts, '\n' ∉ text := by
  intro text member
  simp only [Node.texts, List.mem_cons] at member
  rcases member with rfl | rfl | property
  · exact sound.spelled.not_mem (by decide)
  · exact sound.label.2.2
  · exact (sound.properties text property).lineFeed

theorem Edge.Sound.single_line {edge : Edge} (sound : edge.Sound) :
    ∀ text ∈ edge.texts, '\n' ∉ text := by
  intro text member
  simp only [Edge.texts, List.mem_cons, Option.mem_toList] at member
  rcases member with rfl | rfl | label
  · exact sound.source_spelled.not_mem (by decide)
  · exact sound.target_spelled.not_mem (by decide)
  · exact (sound.label text label).2.2

theorem Group.Sound.single_line {group : Group} {declared : List Ident}
    (sound : group.Sound declared) (keys : ∀ id ∈ declared, '\n' ∉ id) :
    ∀ text ∈ group.texts, '\n' ∉ text := by
  intro text member
  simp only [Group.texts, List.cons_append, List.mem_cons, List.mem_append] at member
  rcases member with rfl | rfl | inside | property
  · exact sound.spelled.not_mem (by decide)
  · exact sound.label
  · exact keys text (sound.members text inside)
  · exact (sound.properties text property).lineFeed

namespace Diagram.Sound

variable {diagram : Diagram}

theorem key_eq_ofLabel (sound : diagram.Sound) {id : Ident} (member : id ∈ diagram.nodes.keys) :
    ∃ label, id = Ident.ofLabel label := by
  obtain ⟨entry, known, rfl⟩ := List.mem_map.mp member
  obtain ⟨same, node⟩ := sound.nodes entry known
  exact ⟨entry.2.label, same ▸ node.id⟩

theorem key_single_line (sound : diagram.Sound) : ∀ id ∈ diagram.nodes.keys, '\n' ∉ id := by
  intro id member
  obtain ⟨label, rfl⟩ := sound.key_eq_ofLabel member
  exact (Ident.ofLabel_spelled label).not_mem (by decide)

theorem single_line (sound : diagram.Sound) : ∀ text ∈ diagram.texts, '\n' ∉ text := by
  intro text member
  simp only [Diagram.texts, List.cons_append, List.mem_cons, List.mem_append, List.mem_flatMap,
    Option.mem_toList] at member
  rcases member with
    rfl | (((title | key) | ⟨node, known, inside⟩) | ⟨edge, known, inside⟩) | ⟨group, known, inside⟩
  · have codes : ∀ code ∈ ["TB".toList, "BT".toList, "LR".toList, "RL".toList], '\n' ∉ code := by
      decide
    exact codes _ sound.direction
  · exact (sound.title text title).2.2
  · exact sound.key_single_line text key
  · obtain ⟨entry, listed, rfl⟩ := List.mem_map.mp known
    exact (sound.nodes entry listed).2.single_line text inside
  · exact (sound.edges edge known).single_line text inside
  · exact (sound.groups group known).single_line sound.key_single_line text inside

end Diagram.Sound

theorem Reading.Sound.single_line {reading : Reading} (sound : reading.Sound) :
    ∀ text ∈ reading.texts, '\n' ∉ text := by
  intro text member
  rcases List.mem_append.mp member with closed | inside
  · exact sound.diagram.single_line text closed
  · obtain ⟨group, shown, within⟩ := List.mem_flatMap.mp inside
    have legal := sound.openGroup group (Option.mem_toList.mp shown)
    exact legal.single_line sound.diagram.key_single_line text within

/-- After any number of lines of any source the reading is sound. The ends of edges keep to the
alphabet of identifiers and are no keywords, and no text of the diagram or of the open group breaks
a line. -/
theorem Reading.sound_after_lines (source : Text) (n : Nat) :
    let reading := Reading.ofStatements ((Statement.ofSource source).take n)
    reading.Sound ∧
      (∀ edge ∈ reading.diagram.edges, ∀ id ∈ [edge.source, edge.target],
        Ident.Spelled id ∧ id ∉ Ident.reserved) ∧
      ∀ text ∈ reading.texts, '\n' ∉ text := by
  intro reading
  have legal : ∀ statement ∈ (Statement.ofSource source).take n, statement.Sound := by
    intro statement member
    exact Statement.sound_of_mem_ofSource (List.mem_of_mem_take member)
  have sound : reading.Sound := Reading.sound_empty.run legal
  refine ⟨sound, ?_, sound.single_line⟩
  intro edge member id place
  have origin : ∃ label, id = Ident.ofLabel label := by
    have legal := sound.diagram.edges edge member
    simp only [List.mem_cons, List.not_mem_nil, or_false] at place
    rcases place with rfl | rfl
    · exact legal.source
    · exact legal.target
  obtain ⟨label, rfl⟩ := origin
  exact ⟨Ident.ofLabel_spelled label, Ident.ofLabel_not_reserved label⟩

end Flowchart
