import Flowchart.Proofs.Lint.Walk

/-!
The linter and the reader of one source. Both have the same group open after every line, so what
the reader's log says about a line is what the diagnostics say about it, and a group that is never
closed is the one that the reader is left with.
-/
namespace Flowchart

namespace Line

/-- The label and the number of the line that opens the group left open: the last line that opens
or closes a group, if it opens one. -/
def leftOpen? (lines : List Text) : Option (Text × Nat) :=
  ((lines.zipIdx 1).findRev? (isBoundary ·.1)).bind fun (line, number) =>
    (opening? line).map fun declaration => (declaration.label, number)

theorem leftOpen?_concat (lines : List Text) (line : Text) :
    leftOpen? (lines ++ [line]) =
      if isBoundary line then
        (opening? line).map fun declaration => (declaration.label, 1 + lines.length)
      else leftOpen? lines := by
  rw [leftOpen?, leftOpen?, List.zipIdx_append, List.zipIdx_singleton,
    List.findRev?_eq_find?_reverse, List.findRev?_eq_find?_reverse, List.reverse_append,
    List.reverse_singleton, List.singleton_append, List.find?_cons]
  cases isBoundary line <;> simp

theorem ne_nil_of_node {line : Text} (node : kind line = .node) : line ≠ [] := by
  rintro rfl
  contradiction

end Line

namespace Lint

/-- The entry of the reader's log that a diagnostic of a line stands for. -/
def Diagnostic.notice? (diagnostic : Diagnostic) : Option Notice :=
  match diagnostic.problem with
  | .unreadableGroup line | .unspacedArrow line => some (.skipped diagnostic.line line)
  | .strayClose => some (.strayClose diagnostic.line)
  | .unknownDirection word => some (.unknownDirection diagnostic.line word)
  | _ => none

/-- The label and the line of the group that a diagnostic calls never closed. -/
def Diagnostic.neverClosed? (diagnostic : Diagnostic) : Option (Text × Nat) :=
  match diagnostic.problem with
  | .neverClosed label => some (label, diagnostic.line)
  | _ => none

/-- A diagnostic with this code stands at the line with this number. -/
def Reported (source : Text) (number : Nat) (code : Text) : Prop :=
  ∃ diagnostic ∈ lint source, diagnostic.line = number ∧ diagnostic.problem.code = code

/-! ### The open group -/

/-- The linter and the reader have a group of the same label open, or neither has one. -/
def Agree (state : State) (reading : Reading) : Prop :=
  state.openGroup.map (·.1) = reading.openGroup.map (·.label)

theorem Agree.apply {state : State} {reading : Reading} (agree : Agree state reading)
    (number : Nat) (statement : Statement) :
    Agree (state.apply number statement) (reading.apply statement) := by
  cases statement with
  | close =>
    have closed : reading.closeGroup.openGroup = none := by
      unfold Reading.closeGroup
      split
      · assumption
      · rfl
    simp [Agree, State.apply, Reading.apply, closed]
  | node declaration =>
    have kept : (reading.addNode declaration.node).openGroup.map (·.label) =
        reading.openGroup.map (·.label) := by
      cases shown : reading.openGroup <;> simp [Reading.addNode, Group.addMember, shown]
    exact agree.trans kept.symm
  | group declaration => rfl
  | nothing | title | direction | chain | unreadableGroup | unspacedArrow => exact agree

theorem Agree.isSome_eq {state : State} {reading : Reading} (agree : Agree state reading) :
    state.openGroup.isSome = reading.openGroup.isSome := by
  simpa using congrArg Option.isSome agree

theorem Agree.isNone_eq {state : State} {reading : Reading} (agree : Agree state reading) :
    state.openGroup.isNone = reading.openGroup.isNone := by
  simpa using congrArg Option.isNone agree

theorem agree_ofStatements (statements : List Statement) :
    Agree (State.ofStatements statements) (Reading.ofStatements statements) := by
  induction statements using List.reverseRecOn with
  | nil => rfl
  | append_singleton before statement ih =>
    rw [State.ofStatements, State.run_concat, Reading.ofStatements, List.foldl_append]
    exact ih.apply _ statement

theorem openGroup_ofLines (lines : List Text) :
    (State.ofLines lines).openGroup = Line.leftOpen? lines := by
  induction lines using List.reverseRecOn with
  | nil => rfl
  | append_singleton before line ih =>
    rw [State.ofLines_concat, State.apply_ofLine, Line.leftOpen?_concat, ← ih]

/-! ### Line by line -/

theorem notice?_of_declaration {problem : Problem} (own : problem.ofDeclaration = true)
    (number : Nat) : Diagnostic.notice? ⟨number, problem⟩ = none := by
  cases problem with
  | idCollision | unknownProperty | unknownShape => rfl
  | _ => contradiction

/-- One step: a statement is reported as the reader's log has it. -/
theorem Agree.notices {state : State} {reading : Reading} (agree : Agree state reading)
    (number : Nat) (statement : Statement) :
    ((problems state statement).map (⟨number, ·⟩)).filterMap Diagnostic.notice? =
      (reading.notice? number statement).toList := by
  have silent (found : List Problem)
      (quiet : ∀ problem ∈ found, Diagnostic.notice? ⟨number, problem⟩ = none) :
      (found.map (⟨number, ·⟩)).filterMap Diagnostic.notice? = [] := by
    rw [List.filterMap_map]
    exact List.filterMap_eq_nil_iff.mpr quiet
  cases statement with
  | nothing => rfl
  | title text => rfl
  | unreadableGroup line => rfl
  | unspacedArrow line => rfl
  | direction word =>
    cases known : (Direction.ofWord? word).isNone <;>
      simp [problems, Reading.notice?, known, Diagnostic.notice?]
  | close =>
    have same := agree.isNone_eq
    cases known : reading.openGroup.isNone <;>
      simp [problems, Reading.notice?, same, known, Diagnostic.notice?]
  | chain links =>
    apply silent
    intro problem member
    obtain ⟨link, _, labelled⟩ := List.mem_filterMap.mp member
    obtain ⟨label, _, rfl⟩ := Option.map_eq_some_iff.mp labelled
    rfl
  | group declaration =>
    apply silent
    intro problem member
    rw [problems, List.append_assoc] at member
    rcases List.mem_append.mp member with replaced | own
    · obtain ⟨before, _, rfl⟩ := Option.map_eq_some_iff.mp (Option.mem_toList.mp replaced)
      rfl
    · exact notice?_of_declaration (ofDeclaration_of_mem own) number
  | node declaration =>
    apply silent
    intro problem member
    exact notice?_of_declaration (ofDeclaration_of_mem member) number

/-- A whole run: the reader's log is what the walk finds, and the group left open. -/
theorem Agree.noticesFrom {state : State} {reading : Reading} (agree : Agree state reading)
    (number : Nat) (statements : List Statement) :
    reading.noticesFrom number statements =
      (walk state number statements).filterMap Diagnostic.notice? ++
        ((statements.foldl Reading.apply reading).openGroup.map fun group =>
          Notice.neverClosed group.label).toList := by
  induction statements generalizing state reading number with
  | nil => rfl
  | cons statement rest ih =>
    have step := agree.notices number statement
    have later := ih (agree.apply number statement) (number + 1)
    rw [Reading.noticesFrom, walk, List.filterMap_append, step, later, List.foldl_cons,
      List.append_assoc]

/-- What a problem takes from the line at which it is found. -/
def Problem.Fits (line : Text) : Problem → Prop
  | unreadableGroup text => text = line ∧ Line.kind line = .groupOpen
  | unspacedArrow text => text = line ∧ Line.kind line = .node
  | strayClose => Line.kind line = .groupClose
  | unknownDirection _ => Line.kind line = .direction
  | neverClosed _ => Line.kind line = .groupOpen
  | _ => True

theorem fits_of_declaration {problem : Problem} (own : problem.ofDeclaration = true)
    (line : Text) : problem.Fits line := by
  cases problem with
  | idCollision | unknownProperty | unknownShape => trivial
  | _ => contradiction

theorem fits_of_mem_problems {state : State} {line : Text} {problem : Problem}
    (member : problem ∈ problems state (Statement.ofLine line)) : problem.Fits line := by
  unfold Statement.ofLine at member
  cases shape : Line.kind line with
  | blank | comment | title => simp [shape, problems] at member
  | direction | groupClose =>
    simp only [shape, problems] at member
    split at member
    · rw [List.mem_singleton.mp member]
      exact shape
    · contradiction
  | relationship =>
    simp only [shape, problems] at member
    obtain ⟨link, _, labelled⟩ := List.mem_filterMap.mp member
    obtain ⟨label, _, rfl⟩ := Option.map_eq_some_iff.mp labelled
    trivial
  | groupOpen =>
    cases read : Declaration.group? line with
    | none =>
      simp only [shape, read, problems] at member
      rw [List.mem_singleton.mp member]
      exact ⟨rfl, shape⟩
    | some declaration =>
      simp only [shape, read, problems, List.append_assoc] at member
      rcases List.mem_append.mp member with replaced | own
      · obtain ⟨before, _, rfl⟩ := Option.map_eq_some_iff.mp (Option.mem_toList.mp replaced)
        trivial
      · exact fits_of_declaration (ofDeclaration_of_mem own) line
  | node =>
    cases read : Declaration.node? line with
    | none => simp [shape, read, problems] at member
    | some declaration =>
      cases arrow : Line.hasArrow declaration.label with
      | true =>
        simp only [shape, read, arrow, if_true, problems] at member
        rw [List.mem_singleton.mp member]
        exact ⟨rfl, shape⟩
      | false =>
        simp only [shape, read, arrow, problems] at member
        exact fits_of_declaration (ofDeclaration_of_mem member) line

/-! ### Whole sources -/

variable {source : Text} {diagnostic : Diagnostic}

theorem notice?_of_atEnd (late : diagnostic.problem.atEnd = true) : diagnostic.notice? = none := by
  obtain ⟨number, problem⟩ := diagnostic
  cases problem with
  | neverClosed | undeclared => rfl
  | _ => contradiction

theorem notices_eq (source : Text) :
    Reading.notices source =
      (lint source).filterMap Diagnostic.notice? ++
        ((Reading.ofSource source).openGroup.map fun group =>
          Notice.neverClosed group.label).toList := by
  have start : Agree {} {} := rfl
  rw [filterMap_lint source fun _ _ member => notice?_of_atEnd (atEnd_of_mem_closing member)]
  exact start.noticesFrom 1 (Statement.ofSource source)

theorem fits_of_notice? (member : diagnostic ∈ lint source)
    (noticed : diagnostic.notice?.isSome) :
    ∃ i line, (Line.ofSource source)[i]? = some line ∧ diagnostic.line = i + 1 ∧
      diagnostic.problem.Fits line := by
  rcases mem_lint.mp member with walked | closed
  · obtain ⟨i, statement, found, number, known⟩ := mem_walk.mp walked
    rw [Statement.ofSource_eq, List.getElem?_map] at found
    obtain ⟨line, here, rfl⟩ := Option.map_eq_some_iff.mp found
    exact ⟨i, line, here, by omega, fits_of_mem_problems known⟩
  · rw [notice?_of_atEnd (atEnd_of_mem_closing closed)] at noticed
    contradiction

theorem mem_notices {notice : Notice} (line : ∀ label, notice ≠ .neverClosed label) :
    notice ∈ Reading.notices source ↔
      ∃ diagnostic ∈ lint source, diagnostic.notice? = some notice := by
  have other : notice ∉ ((Reading.ofSource source).openGroup.map fun group =>
      Notice.neverClosed group.label).toList := by
    intro member
    obtain ⟨group, _, same⟩ := Option.map_eq_some_iff.mp (Option.mem_toList.mp member)
    exact line group.label same.symm
  rw [notices_eq, List.mem_append, or_iff_left other, List.mem_filterMap]

theorem code_skipped {problem : Problem} : problem.code = "skipped-line".toList ↔
    ∃ line, problem = .unreadableGroup line ∨ problem = .unspacedArrow line := by
  unfold Problem.code
  cases problem <;> simp

theorem code_strayClose {problem : Problem} :
    problem.code = "stray-close".toList ↔ problem = .strayClose := by
  unfold Problem.code
  cases problem <;> simp

theorem code_unknownDirection {problem : Problem} :
    problem.code = "unknown-direction".toList ↔ ∃ word, problem = .unknownDirection word := by
  unfold Problem.code
  cases problem <;> simp

theorem notice?_eq_skipped {number : Nat} {line : Text} :
    diagnostic.notice? = some (.skipped number line) ↔ diagnostic.line = number ∧
      (diagnostic.problem = .unreadableGroup line ∨ diagnostic.problem = .unspacedArrow line) := by
  obtain ⟨place, problem⟩ := diagnostic
  cases problem <;> simp [Diagnostic.notice?]

theorem notice?_eq_strayClose {number : Nat} :
    diagnostic.notice? = some (.strayClose number) ↔
      diagnostic.line = number ∧ diagnostic.problem = .strayClose := by
  obtain ⟨place, problem⟩ := diagnostic
  cases problem <;> simp [Diagnostic.notice?]

theorem notice?_eq_unknownDirection {number : Nat} {word : Text} :
    diagnostic.notice? = some (.unknownDirection number word) ↔
      diagnostic.line = number ∧ diagnostic.problem = .unknownDirection word := by
  obtain ⟨place, problem⟩ := diagnostic
  cases problem <;> simp [Diagnostic.notice?]

section Here

variable {i : Nat} {line : Text}

theorem reported_skipped (here : (Line.ofSource source)[i]? = some line) :
    Reported source (i + 1) "skipped-line".toList ↔
      .skipped (i + 1) line ∈ Reading.notices source := by
  rw [mem_notices (by simp)]
  constructor
  · rintro ⟨diagnostic, member, number, code⟩
    obtain ⟨text, shape⟩ := code_skipped.mp code
    have noticed : diagnostic.notice? = some (.skipped (i + 1) text) :=
      notice?_eq_skipped.mpr ⟨number, shape⟩
    obtain ⟨j, other, there, place, fits⟩ := fits_of_notice? member (by rw [noticed]; rfl)
    have same : j = i := by omega
    rw [same, here] at there
    have known : text = line := by
      rcases shape with shape | shape <;> rw [shape, ← Option.some.inj there] at fits
      · exact fits.1
      · exact fits.1
    exact ⟨diagnostic, member, known ▸ noticed⟩
  · rintro ⟨diagnostic, member, noticed⟩
    obtain ⟨number, shape⟩ := notice?_eq_skipped.mp noticed
    exact ⟨diagnostic, member, number, code_skipped.mpr ⟨line, shape⟩⟩

theorem reported_strayClose :
    Reported source (i + 1) "stray-close".toList ↔
      .strayClose (i + 1) ∈ Reading.notices source := by
  rw [mem_notices (by simp)]
  constructor
  · rintro ⟨diagnostic, member, number, code⟩
    have noticed := notice?_eq_strayClose.mpr ⟨number, code_strayClose.mp code⟩
    exact ⟨diagnostic, member, noticed⟩
  · rintro ⟨diagnostic, member, noticed⟩
    obtain ⟨number, shape⟩ := notice?_eq_strayClose.mp noticed
    exact ⟨diagnostic, member, number, code_strayClose.mpr shape⟩

theorem reported_unknownDirection :
    Reported source (i + 1) "unknown-direction".toList ↔
      ∃ word, .unknownDirection (i + 1) word ∈ Reading.notices source := by
  constructor
  · rintro ⟨diagnostic, member, number, code⟩
    obtain ⟨word, shape⟩ := code_unknownDirection.mp code
    have noticed := notice?_eq_unknownDirection.mpr ⟨number, shape⟩
    exact ⟨word, (mem_notices (by simp)).mpr ⟨diagnostic, member, noticed⟩⟩
  · rintro ⟨word, logged⟩
    obtain ⟨diagnostic, member, noticed⟩ := (mem_notices (by simp)).mp logged
    obtain ⟨number, shape⟩ := notice?_eq_unknownDirection.mp noticed
    exact ⟨diagnostic, member, number, code_unknownDirection.mpr ⟨word, shape⟩⟩

end Here

/-! ### The group left open -/

theorem leftOpen?_shown {lines : List Text} {label : Text} {number : Nat}
    (found : Line.leftOpen? lines = some (label, number)) :
    ∃ i line, lines[i]? = some line ∧ number = i + 1 ∧ Line.kind line = .groupOpen := by
  obtain ⟨⟨line, place⟩, last, opened⟩ := Option.bind_eq_some_iff.mp found
  obtain ⟨declaration, read, same⟩ := Option.map_eq_some_iff.mp opened
  rw [List.findRev?_eq_find?_reverse] at last
  have member : (line, place) ∈ lines.zipIdx 1 :=
    List.mem_reverse.mp (List.mem_of_find?_eq_some last)
  obtain ⟨start, here⟩ := List.mem_zipIdx_iff_le_and_getElem?_sub.mp member
  have number_eq : place = number := (Prod.mk.inj same).2
  refine ⟨place - 1, line, here, by omega, ?_⟩
  by_contra other
  rw [Line.opening?, if_neg other] at read
  contradiction

theorem neverClosed?_closing (state : State) :
    (closing state).filterMap Diagnostic.neverClosed? = state.openGroup.toList := by
  have dangling : state.dangling.filterMap Diagnostic.neverClosed? = [] := by
    apply List.filterMap_eq_nil_iff.mpr
    intro diagnostic member
    obtain ⟨id, shape⟩ := State.problem_of_mem_dangling member
    rw [Diagnostic.neverClosed?, shape]
  rw [closing_eq, List.filterMap_append, dangling, List.append_nil]
  cases state.openGroup <;> rfl

theorem neverClosed?_lint (source : Text) :
    (lint source).filterMap Diagnostic.neverClosed? =
      (Line.leftOpen? (Line.ofSource source)).toList := by
  have walked : (walk {} 1 (Statement.ofSource source)).filterMap Diagnostic.neverClosed? = [] := by
    apply List.filterMap_eq_nil_iff.mpr
    rintro ⟨number, problem⟩ member
    have early := not_atEnd_of_mem_walk member
    cases problem with
    | neverClosed => contradiction
    | _ => rfl
  have all := (lint_perm source).filterMap Diagnostic.neverClosed?
  rw [find_eq, List.filterMap_append, walked, List.nil_append, neverClosed?_closing,
    Statement.ofSource_eq, ← State.ofLines, openGroup_ofLines] at all
  cases left : Line.leftOpen? (Line.ofSource source) with
  | none =>
    rw [left] at all
    exact List.perm_nil.mp all
  | some group =>
    rw [left] at all
    exact List.perm_singleton.mp all

theorem fits_of_neverClosed? (member : diagnostic ∈ lint source)
    (unclosed : diagnostic.neverClosed?.isSome) :
    ∃ i line, (Line.ofSource source)[i]? = some line ∧ diagnostic.line = i + 1 ∧
      diagnostic.problem.Fits line := by
  obtain ⟨number, problem⟩ := diagnostic
  cases problem with
  | neverClosed label =>
    have listed : (label, number) ∈ (lint source).filterMap Diagnostic.neverClosed? :=
      List.mem_filterMap.mpr ⟨_, member, rfl⟩
    rw [neverClosed?_lint] at listed
    exact leftOpen?_shown (Option.mem_toList.mp listed)
  | _ => contradiction

/-- The linter says of each line what the reader's log says of it. The log is, in order, the
diagnostics of skipped lines, stray braces and unknown directions, and then the group left open if
there is one; the diagnostic of a group that is never closed has the label of that group and the
line that opens it. After every line the two have the same group open, no line of another kind is
reported, and no line that declares a node is skipped because it could not be read. -/
theorem diagnostics_match_notices (source : Text) :
    let lines := Line.ofSource source
    let statements := Statement.ofSource source
    let reading := Reading.ofSource source
    Reading.notices source =
        (lint source).filterMap Diagnostic.notice? ++
          (reading.openGroup.map fun group => Notice.neverClosed group.label).toList ∧
      (∀ i line, lines[i]? = some line →
        (Reported source (i + 1) "skipped-line".toList ↔
          .skipped (i + 1) line ∈ Reading.notices source) ∧
        (Reported source (i + 1) "stray-close".toList ↔
          .strayClose (i + 1) ∈ Reading.notices source) ∧
        (Reported source (i + 1) "unknown-direction".toList ↔
          ∃ word, .unknownDirection (i + 1) word ∈ Reading.notices source)) ∧
      (lint source).filterMap Diagnostic.neverClosed? = (Line.leftOpen? lines).toList ∧
      reading.openGroup.map (·.label) = (Line.leftOpen? lines).map (·.1) ∧
      (∀ n, (State.ofStatements (statements.take n)).openGroup.map (·.1) =
        (Reading.ofStatements (statements.take n)).openGroup.map (·.label)) ∧
      (∀ diagnostic ∈ lint source,
        (diagnostic.notice?.isSome ∨ diagnostic.neverClosed?.isSome) →
        ∃ i line, lines[i]? = some line ∧ diagnostic.line = i + 1 ∧
          diagnostic.problem.Fits line) ∧
      ∀ line ∈ lines, Line.kind line = .node → (Declaration.node? line).isSome := by
  intro lines statements reading
  have last : (State.ofStatements statements).openGroup = Line.leftOpen? lines := by
    rw [← openGroup_ofLines, State.ofLines, ← Statement.ofSource_eq]
  refine ⟨notices_eq source, ?_, neverClosed?_lint source, ?_, ?_, ?_, ?_⟩
  · intro i line here
    exact ⟨reported_skipped here, reported_strayClose, reported_unknownDirection⟩
  · rw [← last]
    exact (agree_ofStatements statements).symm
  · intro n
    exact agree_ofStatements (statements.take n)
  · rintro diagnostic member (noticed | unclosed)
    · exact fits_of_notice? member noticed
    · exact fits_of_neverClosed? member unclosed
  · intro line member node
    obtain ⟨_, single⟩ := Line.clean_of_mem_ofSource member
    exact Declaration.node?_isSome (Line.ne_nil_of_node node) single

end Lint

end Flowchart
