import Flowchart.Proofs.Lint.Walk

/-!
Dangling ends of edges. The linter keeps a list of declared nodes and a list of ends of its own and
compares them when the walk is over; what it then reports is, end by end, what the diagram of the
same source has no node for.
-/
namespace Flowchart

namespace Line

/-- The ends of the edges of a line, edge by edge. -/
def ends (line : Text) : List Ident := (edges line).flatMap Edge.ends

/-- The ends on lines that are numbered from one, each with the number of its line. -/
def numberedEnds (lines : List Text) : List (Ident × Nat) :=
  (lines.zipIdx 1).flatMap fun (line, number) => (ends line).map (·, number)

theorem numberedEnds_concat (lines : List Text) (line : Text) :
    numberedEnds (lines ++ [line]) =
      numberedEnds lines ++ (ends line).map (·, 1 + lines.length) := by
  rw [numberedEnds, List.zipIdx_append, List.zipIdx_singleton, List.flatMap_append,
    List.flatMap_singleton]
  rfl

/-- Without their numbers they are the ends of the edges of the diagram. -/
theorem numberedEnds_fst (lines : List Text) :
    (numberedEnds lines).map (·.1) = (Reading.ofLines lines).diagram.edges.flatMap Edge.ends := by
  have bare (line : Text) (number : Nat) :
      ((ends line).map (·, number)).map (·.1) = ends line := by
    rw [List.map_map]
    exact List.map_id' (ends line)
  induction lines using List.reverseRecOn with
  | nil => rfl
  | append_singleton before line ih =>
    rw [numberedEnds_concat, List.map_append, ih, bare, Reading.edges_ofLines,
      Reading.edges_ofLines, List.flatMap_append, List.flatMap_singleton, List.flatMap_append]
    rfl

theorem numberedEnds_sorted (lines : List Text) :
    (numberedEnds lines).Pairwise fun first second => first.2 ≤ second.2 := by
  have numbers : (lines.zipIdx 1).Pairwise fun first second => first.2 < second.2 := by
    rw [← List.pairwise_map, List.zipIdx_map_snd]
    exact List.pairwise_lt_range'
  apply List.pairwise_flatMap.mpr
  constructor
  · intro place _
    exact List.pairwise_map.mpr (List.pairwise_of_forall fun _ _ => Nat.le_refl place.2)
  · apply numbers.imp
    intro place later before first here second there
    obtain ⟨_, _, rfl⟩ := List.mem_map.mp here
    obtain ⟨_, _, rfl⟩ := List.mem_map.mp there
    exact Nat.le_of_lt before

end Line

namespace Lint

def Problem.isUndeclared : Problem → Bool
  | undeclared _ => true
  | _ => false

theorem code_undeclared {problem : Problem} :
    problem.code = "undeclared-node".toList ↔ problem.isUndeclared = true := by
  unfold Problem.code
  cases problem <;> simp [Problem.isUndeclared]

/-! ### What the linter keeps -/

theorem ends_ofLines (lines : List Text) :
    (State.ofLines lines).ends = Line.numberedEnds lines := by
  induction lines using List.reverseRecOn with
  | nil => rfl
  | append_singleton before line ih =>
    rw [State.ofLines_concat, State.apply_ofLine, ih, Line.numberedEnds_concat, Line.ends,
      List.map_flatMap]
    rfl

theorem declared_ofLines (lines : List Text) :
    (State.ofLines lines).declared = (lines.filterMap Line.node?).map (·.id) := by
  induction lines using List.reverseRecOn with
  | nil => rfl
  | append_singleton before line ih =>
    rw [State.ofLines_concat, State.apply_ofLine, ih, List.filterMap_append, List.map_append]
    cases found : Line.node? line <;> simp [found]

/-- What the linter has declared is what the diagram has a node for. -/
theorem mem_declared_ofLines (lines : List Text) (id : Ident) :
    id ∈ (State.ofLines lines).declared ↔ id ∈ (Reading.ofLines lines).diagram.nodes.keys := by
  rw [declared_ofLines, Reading.nodes_ofLines, Table.keys_ofList, List.mem_eraseDups,
    List.map_map]
  rfl

/-! ### What it reports -/

theorem filter_closing (state : State) :
    (closing state).filter (·.problem.isUndeclared) = state.dangling := by
  have dangling : state.dangling.filter (·.problem.isUndeclared) = state.dangling := by
    apply List.filter_eq_self.mpr
    intro diagnostic member
    obtain ⟨id, shape⟩ := State.problem_of_mem_dangling member
    rw [shape]
    rfl
  rw [closing_eq, List.filter_append, dangling]
  cases state.openGroup <;> rfl

/-- Of the whole walk only the end finds ends of edges. -/
theorem filter_find (source : Text) :
    (find source).filter (·.problem.isUndeclared) =
      (closing (State.ofLines (Line.ofSource source))).filter (·.problem.isUndeclared) := by
  have walked : (walk {} 1 (Statement.ofSource source)).filter (·.problem.isUndeclared) = [] := by
    apply List.filter_eq_nil_iff.mpr
    intro diagnostic member undeclared
    have early := not_atEnd_of_mem_walk member
    cases shape : diagnostic.problem with
    | undeclared => simp [shape, Problem.atEnd] at early
    | _ => simp [shape, Problem.isUndeclared] at undeclared
  rw [find_eq, List.filter_append, walked, List.nil_append, State.ofLines, Statement.ofSource_eq]

/-- The ends are found in the order of their lines, so sorting by line moves none of them past
another. -/
theorem filter_lint_undeclared (source : Text) :
    let lines := Line.ofSource source
    let keys := (Reading.ofLines lines).diagram.nodes.keys
    (lint source).filter (·.problem.isUndeclared) =
      ((Line.numberedEnds lines).filter (·.1 ∉ keys)).map fun (id, number) =>
        ⟨number, .undeclared id⟩ := by
  intro lines keys
  have missing : (Line.numberedEnds lines).filter (!(State.ofLines lines).declared.contains ·.1) =
      (Line.numberedEnds lines).filter (·.1 ∉ keys) := by
    apply List.filter_congr
    intro place _
    rw [List.contains_eq_mem, ← decide_not]
    exact decide_eq_decide.mpr (not_congr (mem_declared_ofLines lines place.1))
  have found : (find source).filter (·.problem.isUndeclared) =
      ((Line.numberedEnds lines).filter (·.1 ∉ keys)).map fun (id, number) =>
        ⟨number, .undeclared id⟩ := by
    rw [filter_find, filter_closing, State.dangling, ends_ofLines, missing]
  rw [filter_lint, found]
  rw [found]
  exact List.pairwise_map.mpr ((Line.numberedEnds_sorted lines).filter _)

/-- The reports of undeclared nodes are the dangling ends of the diagram. Going through its edges in
order, the source of each before its target, there is one report for every end whose identifier has
no node, on the line that the edge stands on, and none besides. An identifier has a node if any line
of the source declares one, wherever it stands, and a group is no node. So nothing is reported
exactly if the diagram has a node at both ends of every edge. -/
theorem undeclared_reports_dangling (source : Text) :
    let lines := Line.ofSource source
    let diagram := Diagram.ofSource source
    let reports := (lint source).filter (·.problem.code = "undeclared-node".toList)
    (Line.numberedEnds lines).map (·.1) = diagram.edges.flatMap Edge.ends ∧
      reports = ((Line.numberedEnds lines).filter (·.1 ∉ diagram.nodes.keys)).map
        (fun (id, number) => ⟨number, .undeclared id⟩) ∧
      (∀ id, id ∈ diagram.nodes.keys ↔
        ∃ line ∈ lines, ∃ node, Line.node? line = some node ∧ node.id = id) ∧
      (reports = [] ↔ ∀ edge ∈ diagram.edges, ∀ id ∈ edge.ends, id ∈ diagram.nodes.keys) := by
  intro lines diagram reports
  have read : diagram = (Reading.ofLines lines).diagram := by
    rw [← Reading.ofSource_eq]
    rfl
  have ends : (Line.numberedEnds lines).map (·.1) = diagram.edges.flatMap Edge.ends := by
    rw [read, Line.numberedEnds_fst]
  have exactly : reports = ((Line.numberedEnds lines).filter (·.1 ∉ diagram.nodes.keys)).map
      fun (id, number) => ⟨number, .undeclared id⟩ := by
    have own : reports = (lint source).filter (·.problem.isUndeclared) :=
      List.filter_congr fun diagnostic _ => by simp only [code_undeclared, Bool.decide_eq_true]
    rw [own, filter_lint_undeclared, read]
  refine ⟨ends, exactly, ?_, ?_⟩
  · intro id
    rw [read, ← mem_declared_ofLines, declared_ofLines, List.mem_map]
    constructor
    · intro declared
      obtain ⟨node, accepted, same⟩ := declared
      obtain ⟨line, member, known⟩ := List.mem_filterMap.mp accepted
      exact ⟨line, member, node, known, same⟩
    · intro declared
      obtain ⟨line, member, node, known, same⟩ := declared
      exact ⟨node, List.mem_filterMap.mpr ⟨line, member, known⟩, same⟩
  · calc
      reports = [] ↔ ∀ place ∈ Line.numberedEnds lines, place.1 ∈ diagram.nodes.keys := by
        rw [exactly, List.map_eq_nil_iff, List.filter_eq_nil_iff]
        simp only [decide_eq_true_eq, not_not]
      _ ↔ ∀ id ∈ (Line.numberedEnds lines).map (·.1), id ∈ diagram.nodes.keys := by
        rw [List.forall_mem_map]
      _ ↔ ∀ edge ∈ diagram.edges, ∀ id ∈ edge.ends, id ∈ diagram.nodes.keys := by
        rw [ends, List.forall_mem_flatMap]

end Lint

end Flowchart
