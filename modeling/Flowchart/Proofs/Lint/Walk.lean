import Flowchart.Lint
import Flowchart.Proofs.Reading.Groups

/-!
The walk that finds diagnostics. Those of the lines come first, in the order of the lines, and those
of the end behind them, so sorting by line moves none of the former past another. What one line does
to the state is read off the line alone.
-/
namespace Flowchart

namespace Line

/-- The label that a line declares, for a node or for a group. -/
def label? (line : Text) : Option Text :=
  ((opening? line).map (·.label)).or ((node? line).map (·.label))

end Line

namespace Statement

def opening? : Statement → Option Declaration
  | group declaration => some declaration
  | _ => none

def node? : Statement → Option Node
  | node declaration => some declaration.node
  | _ => none

def closes : Statement → Bool
  | close => true
  | _ => false

/-- A statement opens, declares and closes what its line does. -/
theorem parts_ofLine (line : Text) :
    (ofLine line).opening? = Line.opening? line ∧ (ofLine line).node? = Line.node? line ∧
      (ofLine line).closes = Line.closes line := by
  rw [Line.closes_eq]
  unfold ofLine Line.opening? Line.node?
  cases shape : Line.kind line with
  | groupOpen => cases Declaration.group? line <;> exact ⟨rfl, rfl, rfl⟩
  | node =>
    cases Declaration.node? line with
    | none => exact ⟨rfl, rfl, rfl⟩
    | some declaration =>
      cases arrow : Line.hasArrow declaration.label <;>
        simp [arrow, Option.filter, opening?, node?, closes]
  | _ => exact ⟨rfl, rfl, rfl⟩

def label? (statement : Statement) : Option Text :=
  (statement.opening?.map (·.label)).or (statement.node?.map (·.label))

theorem label?_ofLine (line : Text) : (ofLine line).label? = Line.label? line := by
  obtain ⟨opening, node, _⟩ := parts_ofLine line
  rw [label?, Line.label?, opening, node]

end Statement

namespace Lint

namespace State

/-- The state after statements on the lines from `number` on. -/
def run (state : State) (number : Nat) : List Statement → State
  | [] => state
  | statement :: rest => run (state.apply number statement) (number + 1) rest

def ofStatements (statements : List Statement) : State := run {} 1 statements

theorem run_concat (state : State) (number : Nat) (statements : List Statement)
    (statement : Statement) :
    state.run number (statements ++ [statement]) =
      (state.run number statements).apply (number + statements.length) statement := by
  induction statements generalizing state number with
  | nil => rfl
  | cons first rest ih =>
    have shift : number + 1 + rest.length = number + (first :: rest).length := by
      simp only [List.length_cons]
      omega
    simp only [List.cons_append, run, ih, shift]

/-- What one line does to the state. -/
theorem apply_ofLine (state : State) (number : Nat) (line : Text) :
    state.apply number (Statement.ofLine line) =
      { labels := state.labels.merge
          ((Line.label? line).map fun label => (Ident.ofLabel label, label)).toList
        declared := state.declared ++ ((Line.node? line).map (·.id)).toList
        ends := state.ends ++ (Line.edges line).flatMap fun edge =>
          [(edge.source, number), (edge.target, number)]
        openGroup :=
          if Line.isBoundary line then
            (Line.opening? line).map fun declaration => (declaration.label, number)
          else state.openGroup } := by
  cases shape : Line.kind line with
  | blank | comment | title | direction | groupClose | relationship =>
    simp [Statement.ofLine, Line.label?, Line.node?, Line.edges, Line.opening?, Line.isBoundary,
      Line.closes_eq, shape, State.apply, Table.merge, Chain.edges]
  | groupOpen =>
    cases read : Declaration.group? line <;>
      simp [Statement.ofLine, Line.label?, Line.node?, Line.edges, Line.opening?, Line.isBoundary,
        Line.closes_eq, shape, read, State.apply, State.assign, Table.merge]
  | node =>
    cases read : Declaration.node? line with
    | none =>
      simp [Statement.ofLine, Line.label?, Line.node?, Line.edges, Line.opening?, Line.isBoundary,
        Line.closes_eq, shape, read, State.apply, Table.merge]
    | some declaration =>
      cases arrow : Line.hasArrow declaration.label <;>
        simp [Statement.ofLine, Line.label?, Line.node?, Line.edges, Line.opening?,
          Line.isBoundary, Line.closes_eq, shape, read, arrow, Option.filter, State.apply,
          State.assign, Declaration.node, Table.merge]

/-- The state after lines, numbered from one. -/
def ofLines (lines : List Text) : State := ofStatements (lines.map Statement.ofLine)

theorem ofLines_concat (lines : List Text) (line : Text) :
    ofLines (lines ++ [line]) =
      (ofLines lines).apply (1 + lines.length) (Statement.ofLine line) := by
  rw [ofLines, ofLines, ofStatements, ofStatements, List.map_append, List.map_singleton,
    run_concat, List.length_map]

end State

theorem mem_propertyProblems {properties : Property.Properties} {problem : Problem}
    (member : problem ∈ propertyProblems properties) :
    (∃ key, problem = .unknownProperty key) ∨ ∃ shape, problem = .unknownShape shape := by
  rcases List.mem_append.mp member with unknown | shape
  · obtain ⟨key, _, rfl⟩ := List.mem_map.mp unknown
    exact .inl ⟨key, rfl⟩
  · obtain ⟨name, _, rfl⟩ := Option.map_eq_some_iff.mp (Option.mem_toList.mp shape)
    exact .inr ⟨name, rfl⟩

theorem State.collision?_eq_some {state : State} {label : Text} {problem : Problem} :
    state.collision? label = some problem ↔
      ∃ previous, state.labels.get? (Ident.ofLabel label) = some previous ∧ previous ≠ label ∧
        problem = .idCollision label previous (Ident.ofLabel label) := by
  rw [State.collision?, Option.map_eq_some_iff]
  constructor
  · rintro ⟨previous, kept, rfl⟩
    obtain ⟨known, other⟩ := Option.filter_eq_some_iff.mp kept
    exact ⟨previous, known, of_decide_eq_true other, rfl⟩
  · rintro ⟨previous, known, other, rfl⟩
    exact ⟨previous, Option.filter_eq_some_iff.mpr ⟨known, decide_eq_true other⟩, rfl⟩

/-- The problems that a declaration has by itself, whatever groups are open. -/
def Problem.ofDeclaration : Problem → Bool
  | idCollision .. | unknownProperty _ | unknownShape _ => true
  | _ => false

theorem ofDeclaration_of_mem {state : State} {label : Text} {properties : Property.Properties}
    {problem : Problem}
    (member : problem ∈ (state.collision? label).toList ++ propertyProblems properties) :
    problem.ofDeclaration = true := by
  rcases List.mem_append.mp member with collision | property
  · obtain ⟨previous, _, _, rfl⟩ := State.collision?_eq_some.mp (Option.mem_toList.mp collision)
    rfl
  · rcases mem_propertyProblems property with ⟨key, rfl⟩ | ⟨shape, rfl⟩ <;> rfl

/-- The problems that show only at the end of a source. -/
def Problem.atEnd : Problem → Bool
  | neverClosed _ | undeclared _ => true
  | _ => false

theorem not_atEnd_of_mem_problems {state : State} {statement : Statement} {problem : Problem}
    (member : problem ∈ problems state statement) : problem.atEnd = false := by
  have declared (own : problem.ofDeclaration = true) : problem.atEnd = false := by
    cases problem with
    | idCollision | unknownProperty | unknownShape => rfl
    | _ => contradiction
  cases statement with
  | nothing | title => contradiction
  | direction | close =>
    rw [problems] at member
    split at member
    · rw [List.mem_singleton.mp member]
      rfl
    · contradiction
  | chain links =>
    obtain ⟨link, _, labelled⟩ := List.mem_filterMap.mp member
    obtain ⟨label, _, rfl⟩ := Option.map_eq_some_iff.mp labelled
    rfl
  | unreadableGroup | unspacedArrow =>
    rw [List.mem_singleton.mp member]
    rfl
  | group declaration =>
    rw [problems, List.append_assoc] at member
    rcases List.mem_append.mp member with replaced | own
    · obtain ⟨before, _, rfl⟩ := Option.map_eq_some_iff.mp (Option.mem_toList.mp replaced)
      rfl
    · exact declared (ofDeclaration_of_mem own)
  | node declaration => exact declared (ofDeclaration_of_mem member)

/-- The ends of edges that no line declares. -/
def State.dangling (state : State) : List Diagnostic :=
  (state.ends.filter (!state.declared.contains ·.1)).map fun place => ⟨place.2, .undeclared place.1⟩

theorem closing_eq (state : State) :
    closing state =
      (state.openGroup.map fun group => ⟨group.2, .neverClosed group.1⟩).toList ++ state.dangling :=
  rfl

theorem State.problem_of_mem_dangling {state : State} {diagnostic : Diagnostic}
    (member : diagnostic ∈ state.dangling) : ∃ id, diagnostic.problem = .undeclared id := by
  obtain ⟨place, _, rfl⟩ := List.mem_map.mp member
  exact ⟨place.1, rfl⟩

theorem atEnd_of_mem_closing {state : State} {diagnostic : Diagnostic}
    (member : diagnostic ∈ closing state) : diagnostic.problem.atEnd = true := by
  rw [closing_eq] at member
  rcases List.mem_append.mp member with left | dangling
  · obtain ⟨group, _, rfl⟩ := Option.map_eq_some_iff.mp (Option.mem_toList.mp left)
    rfl
  · obtain ⟨id, shape⟩ := State.problem_of_mem_dangling dangling
    rw [shape]
    rfl

/-- What the lines from `number` on show, without the end of the source. -/
def walk (state : State) (number : Nat) : List Statement → List Diagnostic
  | [] => []
  | statement :: rest =>
    (problems state statement).map (⟨number, ·⟩) ++
      walk (state.apply number statement) (number + 1) rest

theorem findFrom_eq (state : State) (number : Nat) (statements : List Statement) :
    findFrom state number statements =
      walk state number statements ++ closing (state.run number statements) := by
  induction statements generalizing state number with
  | nil => rfl
  | cons statement rest ih => simp only [findFrom, walk, State.run, ih, List.append_assoc]

theorem find_eq (source : Text) :
    find source = walk {} 1 (Statement.ofSource source) ++
      closing (State.ofStatements (Statement.ofSource source)) :=
  findFrom_eq {} 1 _

variable {state : State} {number : Nat} {statements : List Statement}

theorem mem_walk {diagnostic : Diagnostic} :
    diagnostic ∈ walk state number statements ↔
      ∃ i statement, statements[i]? = some statement ∧ diagnostic.line = number + i ∧
        diagnostic.problem ∈ problems (state.run number (statements.take i)) statement := by
  induction statements generalizing state number with
  | nil => simp [walk]
  | cons first rest ih =>
    have here : diagnostic ∈ (problems state first).map (⟨number, ·⟩) ↔
        diagnostic.line = number ∧ diagnostic.problem ∈ problems state first := by
      constructor
      · intro member
        obtain ⟨problem, known, rfl⟩ := List.mem_map.mp member
        exact ⟨rfl, known⟩
      · rintro ⟨rfl, known⟩
        exact List.mem_map.mpr ⟨diagnostic.problem, known, rfl⟩
    rw [walk, List.mem_append, here, ih]
    constructor
    · rintro (⟨line, known⟩ | ⟨i, statement, found, line, known⟩)
      · exact ⟨0, first, rfl, line, known⟩
      · exact ⟨i + 1, statement, found, by omega, known⟩
    · rintro ⟨i, statement, found, line, known⟩
      cases i with
      | zero =>
        have same : first = statement := Option.some.inj found
        exact .inl ⟨line, same ▸ known⟩
      | succ i => exact .inr ⟨i, statement, found, by omega, known⟩

theorem not_atEnd_of_mem_walk {diagnostic : Diagnostic}
    (member : diagnostic ∈ walk state number statements) : diagnostic.problem.atEnd = false := by
  obtain ⟨_, _, _, _, known⟩ := mem_walk.mp member
  exact not_atEnd_of_mem_problems known

theorem walk_sorted : (walk state number statements).Pairwise fun a b => a.line ≤ b.line := by
  induction statements generalizing state number with
  | nil => exact List.Pairwise.nil
  | cons statement rest ih =>
    refine List.pairwise_append.mpr ⟨?_, ih, ?_⟩
    · exact List.pairwise_map.mpr (List.pairwise_of_forall fun _ _ => Nat.le_refl number)
    · intro first member second later
      obtain ⟨problem, _, rfl⟩ := List.mem_map.mp member
      obtain ⟨i, _, _, line, _⟩ := mem_walk.mp later
      simp only [line]
      omega

theorem walk_concat (state : State) (number : Nat) (statements : List Statement)
    (statement : Statement) :
    walk state number (statements ++ [statement]) =
      walk state number statements ++
        (problems (state.run number statements) statement).map
          (⟨number + statements.length, ·⟩) := by
  induction statements generalizing state number with
  | nil => simp [walk, State.run]
  | cons first rest ih =>
    have shift : number + 1 + rest.length = number + (first :: rest).length := by
      simp only [List.length_cons]
      omega
    simp only [List.cons_append, walk, ih, shift, State.run, List.append_assoc]

theorem lint_perm (source : Text) : (lint source).Perm (find source) := List.mergeSort_perm _ _

theorem mem_lint {source : Text} {diagnostic : Diagnostic} :
    diagnostic ∈ lint source ↔ diagnostic ∈ walk {} 1 (Statement.ofSource source) ∨
      diagnostic ∈ closing (State.ofStatements (Statement.ofSource source)) := by
  rw [(lint_perm source).mem_iff, find_eq, List.mem_append]

/-- Sorting keeps the order of diagnostics that are found in the order of their lines. -/
theorem sublist_lint {source : Text} {found : List Diagnostic}
    (part : found.Sublist (find source)) (sorted : found.Pairwise fun a b => a.line ≤ b.line) :
    found.Sublist (lint source) := by
  apply List.sublist_mergeSort ?_ ?_ ?_ part
  · intro a b c first second
    simp only [decide_eq_true_eq] at first second ⊢
    omega
  · intro a b
    simp only [Bool.or_eq_true, decide_eq_true_eq]
    omega
  · simpa using sorted

theorem walk_sublist_lint (source : Text) :
    (walk {} 1 (Statement.ofSource source)).Sublist (lint source) := by
  have found : (walk {} 1 (Statement.ofSource source)).Sublist (find source) := by
    rw [find_eq]
    exact List.sublist_append_left _ _
  exact sublist_lint found walk_sorted

/-- Diagnostics of one sort that are found in the order of their lines are reported in it. -/
theorem filter_lint {source : Text} {test : Diagnostic → Bool}
    (sorted : ((find source).filter test).Pairwise fun a b => a.line ≤ b.line) :
    (lint source).filter test = (find source).filter test := by
  have part := (sublist_lint List.filter_sublist sorted).filter test
  have all := ((lint_perm source).filter test).length_eq
  simp only [List.filter_filter, Bool.and_self] at part
  exact (part.eq_of_length all.symm).symm

/-- What is taken from the diagnostics of lines alone stands in the order of the lines. -/
theorem filterMap_lint {β : Type} {view : Diagnostic → Option β} (source : Text)
    (quiet : ∀ state, ∀ diagnostic ∈ closing state, view diagnostic = none) :
    (lint source).filterMap view = (walk {} 1 (Statement.ofSource source)).filterMap view := by
  have part := (walk_sublist_lint source).filterMap view
  have all := ((lint_perm source).filterMap view).length_eq
  have rest : (closing (State.ofStatements (Statement.ofSource source))).filterMap view = [] :=
    List.filterMap_eq_nil_iff.mpr (quiet _)
  rw [find_eq, List.filterMap_append, rest, List.append_nil] at all
  exact (part.eq_of_length all.symm).symm

end Lint

end Flowchart
