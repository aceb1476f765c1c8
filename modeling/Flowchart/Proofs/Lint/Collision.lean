import Flowchart.Proofs.Lint.Walk

/-!
Collisions of identifiers. The linter remembers one label for each identifier, the last, and
compares no other; still some line is reported exactly if any two declared labels, of nodes or of
groups, are different and share their identifier.
-/
namespace Flowchart

/-- Two of the labels are different and share their identifier. -/
def Clash (labels : List Text) : Prop :=
  ∃ first ∈ labels, ∃ second ∈ labels,
    first ≠ second ∧ Ident.ofLabel first = Ident.ofLabel second

/-- The label with this identifier that stands last. -/
def lastWith? (labels : List Text) (id : Ident) : Option Text :=
  labels.findRev? (Ident.ofLabel · == id)

section Labels

variable {labels : List Text} {label : Text} {id : Ident}

theorem lastWith?_eq_some {last : Text} (found : lastWith? labels id = some last) :
    last ∈ labels ∧ Ident.ofLabel last = id := by
  rw [lastWith?, List.findRev?_eq_find?_reverse] at found
  constructor
  · exact List.mem_reverse.mp (List.mem_of_find?_eq_some found)
  · simpa using List.find?_some found

theorem lastWith?_isSome (member : label ∈ labels) :
    ∃ last, lastWith? labels (Ident.ofLabel label) = some last := by
  apply Option.isSome_iff_exists.mp
  rw [lastWith?, List.findRev?_eq_find?_reverse, List.find?_isSome]
  exact ⟨label, List.mem_reverse.mpr member, by simp⟩

theorem lastWith?_concat (labels : List Text) (label : Text) (id : Ident) :
    lastWith? (labels ++ [label]) id =
      if Ident.ofLabel label = id then some label else lastWith? labels id := by
  rw [lastWith?, lastWith?, List.findRev?_eq_find?_reverse, List.findRev?_eq_find?_reverse,
    List.reverse_append, List.reverse_singleton, List.singleton_append, List.find?_cons]
  cases same : Ident.ofLabel label == id with
  | true => rw [if_pos (by simpa using same)]
  | false => rw [if_neg (by simpa using same)]

theorem clash_concat :
    Clash (labels ++ [label]) ↔ Clash labels ∨
      ∃ other ∈ labels, other ≠ label ∧ Ident.ofLabel other = Ident.ofLabel label := by
  constructor
  · rintro ⟨first, here, second, there, different, same⟩
    rcases List.mem_append.mp here with old | new <;>
      rcases List.mem_append.mp there with before | now
    · exact .inl ⟨first, old, second, before, different, same⟩
    · rw [List.mem_singleton.mp now] at different same
      exact .inr ⟨first, old, different, same⟩
    · rw [List.mem_singleton.mp new] at different same
      exact .inr ⟨second, before, different.symm, same.symm⟩
    · exact absurd ((List.mem_singleton.mp new).trans (List.mem_singleton.mp now).symm) different
  · rintro (⟨first, here, second, there, unlike⟩ | ⟨other, member, unlike⟩)
    · exact ⟨first, List.mem_append_left [label] here, second,
        List.mem_append_left [label] there, unlike⟩
    · exact ⟨other, List.mem_append_left [label] member, label,
        List.mem_append_right labels List.mem_cons_self, unlike⟩

/-- Comparing with the last label is enough: if an earlier one is different and the last is not,
those two clash already. -/
theorem clash_concat_iff_last :
    Clash (labels ++ [label]) ↔ Clash labels ∨
      ∃ last, lastWith? labels (Ident.ofLabel label) = some last ∧ last ≠ label := by
  rw [clash_concat]
  constructor
  · rintro (before | ⟨other, member, different, same⟩)
    · exact .inl before
    · obtain ⟨last, found⟩ := lastWith?_isSome member
      obtain ⟨known, shared⟩ := lastWith?_eq_some found
      by_cases repeated : last = label
      · have unlike : other ≠ last := repeated ▸ different
        exact .inl ⟨other, member, last, known, unlike, shared.symm⟩
      · exact .inr ⟨last, same ▸ found, repeated⟩
  · rintro (before | ⟨last, found, different⟩)
    · exact .inl before
    · obtain ⟨known, shared⟩ := lastWith?_eq_some found
      exact .inr ⟨last, known, different, shared⟩

end Labels

namespace Lint

def Problem.isCollision : Problem → Bool
  | idCollision .. => true
  | _ => false

theorem code_collision {problem : Problem} :
    problem.code = "id-collision".toList ↔ problem.isCollision = true := by
  unfold Problem.code
  cases problem <;> simp [Problem.isCollision]

/-- Of the labels with one identifier the state knows the last. -/
theorem get?_labels_ofLines (lines : List Text) (id : Ident) :
    (State.ofLines lines).labels.get? id = lastWith? (lines.filterMap Line.label?) id := by
  induction lines using List.reverseRecOn with
  | nil => rfl
  | append_singleton before line ih =>
    rw [State.ofLines_concat, State.apply_ofLine, List.filterMap_append]
    cases declared : Line.label? line with
    | none => simpa [Table.merge, declared] using ih
    | some label =>
      simp [Table.merge, declared, Table.get?_put, lastWith?_concat, ih]

theorem any_isCollision_declaration (state : State) (label : Text)
    (properties : Property.Properties) :
    ((state.collision? label).toList ++ propertyProblems properties).any Problem.isCollision =
      (state.collision? label).isSome := by
  have quiet : (propertyProblems properties).any Problem.isCollision = false := by
    apply List.any_eq_false.mpr
    intro problem member
    rcases mem_propertyProblems member with ⟨key, rfl⟩ | ⟨shape, rfl⟩ <;> simp [Problem.isCollision]
  rw [List.any_append, quiet, Bool.or_false]
  cases found : state.collision? label with
  | none => rfl
  | some problem =>
    obtain ⟨previous, _, _, rfl⟩ := State.collision?_eq_some.mp found
    rfl

/-- One statement is reported if its label collides with the one that the state knows. -/
theorem any_isCollision (state : State) (statement : Statement) :
    (problems state statement).any Problem.isCollision =
      statement.label?.any fun label => (state.collision? label).isSome := by
  cases statement with
  | group declaration =>
    rw [problems, List.append_assoc, List.any_append]
    -- a replaced group is no collision
    cases state.openGroup <;>
      exact any_isCollision_declaration state declaration.label declaration.properties
  | node declaration =>
    exact any_isCollision_declaration state declaration.label declaration.properties
  | chain links =>
    apply List.any_eq_false.mpr
    intro problem member
    obtain ⟨link, _, labelled⟩ := List.mem_filterMap.mp member
    obtain ⟨label, _, rfl⟩ := Option.map_eq_some_iff.mp labelled
    exact Bool.false_ne_true
  | direction | close =>
    rw [problems]
    split <;> rfl
  | nothing | title | unreadableGroup | unspacedArrow => rfl

/-- One line is reported if the last label with its identifier is another one. -/
theorem any_isCollision_ofLine (lines : List Text) (line : Text) :
    (problems (State.ofLines lines) (Statement.ofLine line)).any Problem.isCollision = true ↔
      ∃ label, Line.label? line = some label ∧
        ∃ last, lastWith? (lines.filterMap Line.label?) (Ident.ofLabel label) = some last ∧
          last ≠ label := by
  rw [any_isCollision, Statement.label?_ofLine, Option.any_eq_true]
  constructor
  · rintro ⟨label, declared, collides⟩
    obtain ⟨problem, found⟩ := Option.isSome_iff_exists.mp collides
    obtain ⟨last, known, different, _⟩ := State.collision?_eq_some.mp found
    rw [get?_labels_ofLines] at known
    exact ⟨label, declared, last, known, different⟩
  · rintro ⟨label, declared, last, known, different⟩
    rw [← get?_labels_ofLines] at known
    have found := State.collision?_eq_some.mpr ⟨last, known, different, rfl⟩
    exact ⟨label, declared, Option.isSome_iff_exists.mpr ⟨_, found⟩⟩

/-- A whole walk: some line is reported if two of the labels clash. -/
theorem any_isCollision_walk (lines : List Text) :
    (walk {} 1 (lines.map Statement.ofLine)).any (·.problem.isCollision) = true ↔
      Clash (lines.filterMap Line.label?) := by
  induction lines using List.reverseRecOn with
  | nil => simp [walk, Clash]
  | append_singleton before line ih =>
    have here := any_isCollision_ofLine before line
    have step : (walk {} 1 ((before ++ [line]).map Statement.ofLine)).any (·.problem.isCollision) =
        ((walk {} 1 (before.map Statement.ofLine)).any (·.problem.isCollision) ||
          (problems (State.ofLines before) (Statement.ofLine line)).any Problem.isCollision) := by
      rw [List.map_append, List.map_singleton, walk_concat, List.any_append, List.any_map]
      rfl
    rw [step, Bool.or_eq_true, ih, here, List.filterMap_append]
    cases declared : Line.label? line with
    | none => simp [declared]
    | some label => simp [declared, clash_concat_iff_last]

/-! ### Whole sources -/

theorem collision_iff_clash (source : Text) :
    (∃ diagnostic ∈ lint source, diagnostic.problem.code = "id-collision".toList) ↔
      Clash ((Line.ofSource source).filterMap Line.label?) := by
  rw [← any_isCollision_walk, ← Statement.ofSource_eq, List.any_eq_true]
  constructor
  · rintro ⟨diagnostic, member, code⟩
    rcases mem_lint.mp member with walked | closed
    · exact ⟨diagnostic, walked, code_collision.mp code⟩
    · have late := atEnd_of_mem_closing closed
      have collides := code_collision.mp code
      cases shape : diagnostic.problem with
      | idCollision => simp [shape, Problem.atEnd] at late
      | _ => simp [shape, Problem.isCollision] at collides
  · rintro ⟨diagnostic, walked, collides⟩
    exact ⟨diagnostic, mem_lint.mpr (.inl walked), code_collision.mpr collides⟩

theorem label?_of_node? {line : Text} {node : Node} (declared : Line.node? line = some node) :
    Line.label? line = some node.label ∧ node.id = Ident.ofLabel node.label := by
  have shape : Line.kind line = .node := by
    by_contra other
    rw [Line.node?, if_neg other] at declared
    contradiction
  have unopened : Line.opening? line = none := by rw [Line.opening?, shape]; rfl
  constructor
  · rw [Line.label?, unopened, declared]
    rfl
  · rw [Line.node?, if_pos shape] at declared
    obtain ⟨declaration, _, rfl⟩ := Option.map_eq_some_iff.mp declared
    rfl

/-- The node table has at an identifier a node that some line declares. -/
theorem get?_nodes_ofLines (lines : List Text) {line : Text} {node : Node} (member : line ∈ lines)
    (declared : Line.node? line = some node) :
    ∃ other ∈ lines, ∃ last, Line.node? other = some last ∧ last.id = node.id ∧
      (Reading.ofLines lines).diagram.nodes.get? node.id = some last := by
  have accepted : node ∈ lines.filterMap Line.node? :=
    List.mem_filterMap.mpr ⟨line, member, declared⟩
  have present : ((lines.filterMap Line.node?).reverse.find? (·.id == node.id)).isSome := by
    rw [List.find?_isSome]
    exact ⟨node, List.mem_reverse.mpr accepted, by simp⟩
  obtain ⟨last, found⟩ := Option.isSome_iff_exists.mp present
  obtain ⟨other, there, known⟩ :=
    List.mem_filterMap.mp (List.mem_reverse.mp (List.mem_of_find?_eq_some found))
  refine ⟨other, there, last, known, by simpa using List.find?_some found, ?_⟩
  rw [Reading.nodes_ofLines, Table.get?_ofList, List.findRev?_eq_find?_reverse, ← List.map_reverse,
    List.find?_map, Option.map_map]
  exact (Option.map_id' (x := _)).trans found

/-- Collisions are found exactly. Some line is reported if and only if two declarations that are
accepted, of nodes or of groups, have different labels and one identifier. So without a report no
node is overwritten by a node of another label: each label that is accepted for a node is the one
that the diagram has at its identifier. -/
theorem collisions_exact (source : Text) :
    let lines := Line.ofSource source
    let reported := ∃ diagnostic ∈ lint source, diagnostic.problem.code = "id-collision".toList
    (reported ↔ Clash (lines.filterMap Line.label?)) ∧
      (¬reported → ∀ line ∈ lines, ∀ node, Line.node? line = some node →
        ((Diagram.ofSource source).nodes.get? (Ident.ofLabel node.label)).map (·.label) =
          some node.label) := by
  intro lines reported
  have exactly := collision_iff_clash source
  refine ⟨exactly, ?_⟩
  intro silent line member node declared
  obtain ⟨other, there, last, known, shared, found⟩ := get?_nodes_ofLines lines member declared
  obtain ⟨label, id⟩ := label?_of_node? declared
  obtain ⟨otherLabel, otherId⟩ := label?_of_node? known
  have same : last.label = node.label := by
    by_contra different
    apply silent
    apply exactly.mpr
    refine ⟨last.label, List.mem_filterMap.mpr ⟨other, there, otherLabel⟩, node.label,
      List.mem_filterMap.mpr ⟨line, member, label⟩, different, ?_⟩
    rw [← otherId, ← id, shared]
  have nodes : (Diagram.ofSource source).nodes = (Reading.ofLines lines).diagram.nodes := by
    rw [← Reading.ofSource_eq]
    rfl
  rw [nodes, ← id, found, Option.map_some, same]

end Lint

end Flowchart
