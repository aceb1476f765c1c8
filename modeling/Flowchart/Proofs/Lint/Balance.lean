import Flowchart.Proofs.Lint.Agreement

/-!
Groups in balance. Each opening that can be read ends as a group of the diagram or as a diagnostic
of a group that is lost, and each closing brace either makes a group or is reported as stray.
-/
namespace Flowchart

namespace Lint

/-- A group is lost: replaced by another one or never closed. -/
def Problem.isLost : Problem → Bool
  | replacedGroup .. | neverClosed _ => true
  | _ => false

def Problem.isStray : Problem → Bool
  | strayClose => true
  | _ => false

theorem code_lost {problem : Problem} :
    problem.code = "unclosed-subgraph".toList ↔ problem.isLost = true := by
  unfold Problem.code
  cases problem <;> simp [Problem.isLost]

theorem code_stray {problem : Problem} :
    problem.code = "stray-close".toList ↔ problem.isStray = true := by
  rw [code_strayClose]
  cases problem <;> simp [Problem.isStray]

section Count

variable {test : Problem → Bool}

/-- No problem of a declaration by itself is counted. -/
theorem countP_declaration
    (foreign : ∀ problem, problem.ofDeclaration = true → test problem = false) (state : State)
    (label : Text) (properties : Property.Properties) :
    ((state.collision? label).toList ++ propertyProblems properties).countP test = 0 := by
  apply List.countP_eq_zero.mpr
  intro problem member
  simp [foreign problem (ofDeclaration_of_mem member)]

theorem countP_chain (foreign : ∀ label, test (.chainLabel label) = false) (state : State)
    (links : List Link) : (problems state (.chain links)).countP test = 0 := by
  apply List.countP_eq_zero.mpr
  intro problem member
  obtain ⟨link, _, labelled⟩ := List.mem_filterMap.mp member
  obtain ⟨label, _, rfl⟩ := Option.map_eq_some_iff.mp labelled
  simp [foreign label]

end Count

theorem not_isLost_of_declaration (problem : Problem) (own : problem.ofDeclaration = true) :
    problem.isLost = false := by
  cases problem with
  | idCollision | unknownProperty | unknownShape => rfl
  | _ => contradiction

theorem not_isStray_of_declaration (problem : Problem) (own : problem.ofDeclaration = true) :
    problem.isStray = false := by
  cases problem with
  | idCollision | unknownProperty | unknownShape => rfl
  | _ => contradiction

/-- A statement that opens a group loses the one that is open. -/
theorem countP_isLost (state : State) (statement : Statement) :
    (problems state statement).countP Problem.isLost =
      if statement.opening?.isSome then state.openGroup.isSome.toNat else 0 := by
  cases statement with
  | group declaration =>
    have own := countP_declaration not_isLost_of_declaration state declaration.label
      declaration.properties
    rw [problems, List.append_assoc, List.countP_append, own]
    cases state.openGroup <;> rfl
  | node declaration => exact countP_declaration not_isLost_of_declaration state _ _
  | chain links => exact countP_chain (fun _ => rfl) state links
  | direction word =>
    rw [problems]
    split <;> rfl
  | close =>
    rw [problems]
    split <;> rfl
  | nothing | title | unreadableGroup | unspacedArrow => rfl

/-- A closing brace is stray where no group is open. -/
theorem countP_isStray (state : State) (statement : Statement) :
    (problems state statement).countP Problem.isStray =
      if statement.closes then state.openGroup.isNone.toNat else 0 := by
  cases statement with
  | group declaration =>
    have own := countP_declaration not_isStray_of_declaration state declaration.label
      declaration.properties
    rw [problems, List.append_assoc, List.countP_append, own]
    cases state.openGroup <;> rfl
  | node declaration => exact countP_declaration not_isStray_of_declaration state _ _
  | chain links => exact countP_chain (fun _ => rfl) state links
  | direction word =>
    rw [problems]
    split <;> rfl
  | close =>
    rw [problems]
    cases state.openGroup <;> rfl
  | nothing | title | unreadableGroup | unspacedArrow => rfl

/-! ### One step and a whole run -/

section Run

variable {state : State} {reading : Reading}

/-- One step: a group that was open or is opened is closed, lost or still open. -/
theorem Agree.opened (agree : Agree state reading) (statement : Statement) :
    statement.opening?.isSome.toNat + reading.diagram.groups.length +
        reading.openGroup.isSome.toNat =
      (reading.apply statement).diagram.groups.length +
        (problems state statement).countP Problem.isLost +
        (reading.apply statement).openGroup.isSome.toNat := by
  rw [countP_isLost, agree.isSome_eq]
  cases statement with
  | close =>
    cases shown : reading.openGroup <;>
      simp [Statement.opening?, Reading.apply, Reading.closeGroup, shown]
  | group declaration =>
    simp only [Statement.opening?, Reading.apply, Option.isSome_some, Bool.toNat_true, if_true]
    omega
  | node declaration => simp [Statement.opening?, Reading.apply, Reading.addNode]
  | _ => simp [Statement.opening?, Reading.apply]

/-- One step: a closing brace adds a group or is stray. -/
theorem Agree.closed (agree : Agree state reading) (statement : Statement) :
    statement.closes.toNat + reading.diagram.groups.length =
      (reading.apply statement).diagram.groups.length +
        (problems state statement).countP Problem.isStray := by
  rw [countP_isStray, agree.isNone_eq]
  cases statement with
  | close =>
    cases shown : reading.openGroup with
    | none => simp [Statement.closes, Reading.apply, Reading.closeGroup, shown, Nat.add_comm]
    | some group => simp [Statement.closes, Reading.apply, Reading.closeGroup, shown, Nat.add_comm]
  | node declaration => simp [Statement.closes, Reading.apply, Reading.addNode]
  | _ => simp [Statement.closes, Reading.apply]

theorem countP_walk_cons (test : Problem → Bool) (state : State) (number : Nat)
    (statement : Statement) (rest : List Statement) :
    (walk state number (statement :: rest)).countP (test ·.problem) =
      (problems state statement).countP test +
        (walk (state.apply number statement) (number + 1) rest).countP (test ·.problem) := by
  rw [walk, List.countP_append, List.countP_map]
  rfl

theorem Agree.opened_run (agree : Agree state reading) (number : Nat)
    (statements : List Statement) :
    let after := statements.foldl Reading.apply reading
    statements.countP (·.opening?.isSome) + reading.diagram.groups.length +
        reading.openGroup.isSome.toNat =
      after.diagram.groups.length +
        (walk state number statements).countP (·.problem.isLost) +
        after.openGroup.isSome.toNat := by
  induction statements generalizing state reading number with
  | nil => simp [walk]
  | cons statement rest ih =>
    have step := agree.opened statement
    have later := ih (agree.apply number statement) (number + 1)
    have here : (statement :: rest).countP (·.opening?.isSome) =
        rest.countP (·.opening?.isSome) + statement.opening?.isSome.toNat := by
      cases shown : statement.opening? <;> simp [shown]
    simp only [List.foldl_cons] at later ⊢
    rw [countP_walk_cons, here]
    omega

theorem Agree.closed_run (agree : Agree state reading) (number : Nat)
    (statements : List Statement) :
    statements.countP Statement.closes + reading.diagram.groups.length =
      (statements.foldl Reading.apply reading).diagram.groups.length +
        (walk state number statements).countP (·.problem.isStray) := by
  induction statements generalizing state reading number with
  | nil => simp [walk]
  | cons statement rest ih =>
    have step := agree.closed statement
    have later := ih (agree.apply number statement) (number + 1)
    have here : (statement :: rest).countP Statement.closes =
        rest.countP Statement.closes + statement.closes.toNat := by
      cases shown : statement.closes <;> simp [shown]
    rw [List.foldl_cons, countP_walk_cons, here]
    omega

end Run

/-! ### Whole sources -/

theorem countP_closing_isLost (state : State) :
    (closing state).countP (·.problem.isLost) = state.openGroup.isSome.toNat := by
  have dangling : state.dangling.countP (·.problem.isLost) = 0 := by
    apply List.countP_eq_zero.mpr
    intro diagnostic member
    obtain ⟨id, shape⟩ := State.problem_of_mem_dangling member
    simp [shape, Problem.isLost]
  rw [closing_eq, List.countP_append, dangling]
  cases state.openGroup <;> rfl

theorem countP_closing_isStray (state : State) :
    (closing state).countP (·.problem.isStray) = 0 := by
  apply List.countP_eq_zero.mpr
  intro diagnostic member
  have late := atEnd_of_mem_closing member
  cases shape : diagnostic.problem with
  | strayClose => simp [shape, Problem.atEnd] at late
  | _ => simp [Problem.isStray]

theorem countP_lint (source : Text) (test : Diagnostic → Bool) :
    (lint source).countP test =
      (walk {} 1 (Statement.ofSource source)).countP test +
        (closing (State.ofStatements (Statement.ofSource source))).countP test := by
  rw [(lint_perm source).countP_eq, find_eq, List.countP_append]

/-- No group is lost without an error. The openings that can be read are as many as the groups of
the diagram and the errors about lost groups together, and the closing braces as many as the groups
and the stray braces. -/
theorem groups_accounted_for (source : Text) :
    let lines := Line.ofSource source
    let groups := (Diagram.ofSource source).groups
    lines.countP (fun line => (Line.opening? line).isSome) =
        groups.length +
          (lint source).countP (fun diagnostic =>
            diagnostic.problem.code = "unclosed-subgraph".toList) ∧
      lines.countP Line.closes =
        groups.length +
          (lint source).countP (fun diagnostic =>
            diagnostic.problem.code = "stray-close".toList) := by
  intro lines groups
  have start : Agree {} {} := rfl
  have finish := agree_ofStatements (Statement.ofSource source)
  constructor
  · have openings : lines.countP (fun line => (Line.opening? line).isSome) =
        (Statement.ofSource source).countP (·.opening?.isSome) := by
      rw [Statement.ofSource_eq, List.countP_map]
      exact List.countP_congr fun line _ => by simp [(Statement.parts_ofLine line).1]
    have run : (Statement.ofSource source).countP (·.opening?.isSome) =
        groups.length + (walk {} 1 (Statement.ofSource source)).countP (·.problem.isLost) +
          (Reading.ofSource source).openGroup.isSome.toNat :=
      start.opened_run 1 (Statement.ofSource source)
    have left : (closing (State.ofStatements (Statement.ofSource source))).countP
        (·.problem.isLost) = (Reading.ofSource source).openGroup.isSome.toNat := by
      rw [countP_closing_isLost, finish.isSome_eq]
      rfl
    simp only [code_lost, Bool.decide_eq_true]
    rw [openings, run, countP_lint, left, Nat.add_assoc]
  · have braces : lines.countP Line.closes =
        (Statement.ofSource source).countP Statement.closes := by
      rw [Statement.ofSource_eq, List.countP_map]
      exact List.countP_congr fun line _ => by simp [(Statement.parts_ofLine line).2.2]
    have run : (Statement.ofSource source).countP Statement.closes =
        groups.length + (walk {} 1 (Statement.ofSource source)).countP (·.problem.isStray) :=
      start.closed_run 1 (Statement.ofSource source)
    simp only [code_stray, Bool.decide_eq_true]
    rw [braces, run, countP_lint, countP_closing_isStray, Nat.add_zero]

end Lint

end Flowchart
