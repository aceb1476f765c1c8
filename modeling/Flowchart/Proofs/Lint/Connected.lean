import Flowchart.Proofs.Chain.Splitting
import Flowchart.Proofs.Lint.Walk

/-!
Chains that hold together. An operand inside of a chain is the end of one edge and the start of the
next, and only as the end of one it is read without its label. So a label inside of a chain can part
the two, and the linter reports every such label.
-/
namespace Flowchart

namespace Link

/-- The identifier that the edge has for the operand in front of the arrow. -/
def leftEnd (link : Link) : Ident :=
  match link.arrow with
  | .forward => link.edge.source
  | .backward => link.edge.target

/-- The identifier that the edge has for the operand behind the arrow. -/
def rightEnd (link : Link) : Ident :=
  match link.arrow with
  | .forward => link.edge.target
  | .backward => link.edge.source

theorem leftEnd_eq (link : Link) :
    link.leftEnd = Ident.ofLabel (Text.stripQuotes link.left) := by
  rw [leftEnd, edge]
  cases link.arrow <;> rfl

theorem rightEnd_eq (link : Link) :
    link.rightEnd = Ident.ofLabel (Text.stripQuotes (Chain.splitLabel link.right).1) := by
  rw [rightEnd, edge]
  cases link.arrow <;> rfl

theorem ends_edge (link : Link) : link.edge.ends = [link.leftEnd, link.rightEnd] ∨
    link.edge.ends = [link.rightEnd, link.leftEnd] := by
  rw [leftEnd, rightEnd]
  cases link.arrow with
  | forward => exact .inl rfl
  | backward => exact .inr rfl

/-- Without a label, an operand is the same on both sides. -/
theorem rightEnd_eq_leftEnd {link next : Link} (shared : link.right = next.left)
    (plain : link.edge.label = none) : link.rightEnd = next.leftEnd := by
  rw [label_edge] at plain
  rw [rightEnd_eq, leftEnd_eq, Chain.splitLabel_of_unlabelled plain, shared]

end Link

namespace Chain

/-- Edges along a row of identifiers: each joins one of them with the next, in either direction. -/
inductive Trail : List Ident → List Edge → Prop
  | single (id : Ident) : Trail [id] []
  | cons {id next : Ident} {rest : List Ident} {edge : Edge} {edges : List Edge}
    (joins : edge.ends = [id, next] ∨ edge.ends = [next, id]) (later : Trail (next :: rest) edges) :
    Trail (id :: next :: rest) (edge :: edges)

/-- The identifiers of the operands, from the first to the last, which is read without its label. -/
def operandIds (links : List Link) : List Ident :=
  links.map (fun link => Ident.ofLabel (Text.stripQuotes link.left)) ++
    (links.getLast?.map fun link =>
      Ident.ofLabel (Text.stripQuotes (splitLabel link.right).1)).toList

theorem links_connected (line : Text) :
    (links line).IsChain fun link next => link.right = next.left :=
  isChain_pair _ _

/-- What holds of neighbours may be told from the first of them, which is not the last of all. -/
theorem isChain_of_dropLast {links : List Link} {R : Link → Link → Prop}
    (connected : links.IsChain fun link next => link.right = next.left)
    (step : ∀ link next, link.right = next.left → link ∈ links.dropLast → R link next) :
    links.IsChain R := by
  rw [List.isChain_iff_getElem] at connected ⊢
  intro k inside
  apply step _ _ (connected k inside)
  have early : k < links.dropLast.length := by
    rw [List.length_dropLast]
    omega
  rw [← List.getElem_dropLast early]
  exact List.getElem_mem early

/-- A line that is taken for a chain has a link. -/
theorem links_ne_nil {line : Text} (trimmed : Text.Trimmed line)
    (relationship : Line.kind line = .relationship) : links line ≠ [] := by
  have spaced : Line.hasSpacedArrow line = true := by grind [Line.kind]
  have nonempty : line ≠ [] := by
    rintro rfl
    contradiction
  exact linked_of_spacedArrow trimmed nonempty spaced

theorem operandIds_cons (link next : Link) (rest : List Link) :
    operandIds (link :: next :: rest) = link.leftEnd :: operandIds (next :: rest) := by
  rw [operandIds, operandIds, List.getLast?_cons_cons, List.map_cons, List.cons_append,
    link.leftEnd_eq]

/-- A chain without labels inside is a trail along its operands. -/
theorem trail_of_unlabelled {links : List Link} (nonempty : links ≠ [])
    (connected : links.IsChain fun link next => link.right = next.left)
    (plain : ∀ link ∈ links.dropLast, link.edge.label = none) :
    Trail (operandIds links) (links.map Link.edge) := by
  induction links with
  | nil => contradiction
  | cons link rest ih =>
    cases rest with
    | nil =>
      have ends : operandIds [link] = [link.leftEnd, link.rightEnd] := by
        rw [link.leftEnd_eq, link.rightEnd_eq]
        rfl
      rw [ends]
      exact .cons link.ends_edge (.single _)
    | cons next more =>
      obtain ⟨here, behind⟩ := List.isChain_cons_cons.mp connected
      rw [List.dropLast_cons_cons] at plain
      obtain ⟨unlabelled, later⟩ := List.forall_mem_cons.mp plain
      have trail := ih (List.cons_ne_nil next more) behind later
      obtain ⟨others, shown⟩ : ∃ others,
          operandIds (next :: more) = link.rightEnd :: others := by
        rw [link.rightEnd_eq_leftEnd here unlabelled, next.leftEnd_eq]
        exact ⟨_, rfl⟩
      rw [operandIds_cons, shown, List.map_cons]
      exact .cons link.ends_edge (shown ▸ trail)

end Chain

namespace Lint

variable {state : State} {number i : Nat} {statements : List Statement} {statement : Statement}
  {source : Text}

/-! ### The diagnostics of one line -/

theorem line_of_mem_walk {diagnostic : Diagnostic}
    (member : diagnostic ∈ walk state number statements) : number ≤ diagnostic.line := by
  obtain ⟨i, _, _, line, _⟩ := mem_walk.mp member
  omega

theorem filter_numbered (found : List Problem) (number line : Nat) :
    (found.map (Diagnostic.mk number)).filter (fun diagnostic => diagnostic.line = line) =
      if number = line then found.map (Diagnostic.mk number) else [] := by
  by_cases same : number = line <;> simp [List.filter_map, Function.comp_def, same]

/-- What the walk finds at a line is what the statement there shows, after the lines before it. -/
theorem filter_walk (here : statements[i]? = some statement) :
    (walk state number statements).filter (fun diagnostic => diagnostic.line = number + i) =
      (problems (state.run number (statements.take i)) statement).map
        (Diagnostic.mk (number + i)) := by
  induction statements generalizing state number i with
  | nil => contradiction
  | cons first rest ih =>
    rw [walk, List.filter_append, filter_numbered]
    cases i with
    | zero =>
      obtain rfl : first = statement := Option.some.inj here
      have later : (walk (state.apply number first) (number + 1) rest).filter
          (fun diagnostic => diagnostic.line = number + 0) = [] := by
        apply List.filter_eq_nil_iff.mpr
        intro diagnostic member
        have behind := line_of_mem_walk member
        rw [decide_eq_true_eq]
        omega
      rw [later, if_pos (Nat.add_zero number).symm, List.append_nil]
      rfl
    | succ i =>
      have shift : number + (i + 1) = number + 1 + i := by omega
      rw [if_neg (by omega), List.nil_append, shift]
      exact ih here

theorem filter_closing_eq_nil {test : Problem → Bool}
    (early : ∀ problem, test problem = true → problem.atEnd = false) (state : State) :
    (closing state).filter (fun diagnostic => test diagnostic.problem) = [] := by
  apply List.filter_eq_nil_iff.mpr
  intro diagnostic member tested
  have late := atEnd_of_mem_closing member
  rw [early _ tested] at late
  contradiction

theorem filter_find_line {test : Problem → Bool}
    (early : ∀ problem, test problem = true → problem.atEnd = false)
    (here : (Statement.ofSource source)[i]? = some statement) :
    (find source).filter (fun diagnostic => diagnostic.line = i + 1 ∧ test diagnostic.problem) =
      ((problems (State.ofStatements ((Statement.ofSource source).take i)) statement).filter
        test).map (Diagnostic.mk (i + 1)) := by
  have own : (walk {} 1 (Statement.ofSource source)).filter (·.line = 1 + i) = _ := filter_walk here
  rw [Nat.add_comm] at own
  simp only [Bool.decide_and, Bool.decide_eq_true, ← List.filter_filter]
  rw [find_eq, List.filter_append, filter_closing_eq_nil early, List.append_nil, List.filter_comm,
    own, List.filter_map]
  rfl

/-- Of a sort of problems that do not wait for the end, what is reported of a line is what its
statement shows. -/
theorem filter_lint_line {test : Problem → Bool}
    (early : ∀ problem, test problem = true → problem.atEnd = false)
    (here : (Statement.ofSource source)[i]? = some statement) :
    (lint source).filter (fun diagnostic => diagnostic.line = i + 1 ∧ test diagnostic.problem) =
      ((problems (State.ofStatements ((Statement.ofSource source).take i)) statement).filter
        test).map (Diagnostic.mk (i + 1)) := by
  have found := filter_find_line early here
  rw [filter_lint, found]
  -- On one line there is nothing to sort.
  rw [found]
  exact List.pairwise_map.mpr (List.pairwise_of_forall fun _ _ => Nat.le_refl (i + 1))

/-! ### Labels inside of chains -/

def Problem.isChainLabel : Problem → Bool
  | chainLabel _ => true
  | _ => false

theorem code_chainLabel {problem : Problem} :
    problem.code = "chain-label".toList ↔ problem.isChainLabel = true := by
  unfold Problem.code
  cases problem <;> simp [Problem.isChainLabel]

theorem atEnd_of_isChainLabel (problem : Problem) (inside : problem.isChainLabel = true) :
    problem.atEnd = false := by
  cases problem with
  | chainLabel => rfl
  | _ => contradiction

/-- A chain shows nothing but the labels of its edges before the last. -/
theorem problems_chain (state : State) (line : Text) :
    (problems state (.chain (Chain.links line))).filter Problem.isChainLabel =
      (Chain.edges line).dropLast.filterMap fun edge => edge.label.map .chainLabel := by
  have all : ∀ problem ∈ problems state (.chain (Chain.links line)),
      problem.isChainLabel = true := by
    intro problem member
    obtain ⟨link, _, labelled⟩ := List.mem_filterMap.mp member
    obtain ⟨label, _, rfl⟩ := Option.map_eq_some_iff.mp labelled
    rfl
  rw [List.filter_eq_self.mpr all, problems, Chain.edges, ← List.map_dropLast,
    List.filterMap_map]
  refine List.filterMap_congr fun link _ => ?_
  rw [Function.comp_apply, link.label_edge]

/-- What is reported of a chain: the labels of its edges before the last, in their order. -/
theorem filter_chainLabel {line : Text} (here : (Line.ofSource source)[i]? = some line)
    (relationship : Line.kind line = .relationship) :
    (lint source).filter (fun diagnostic =>
        diagnostic.line = i + 1 ∧ diagnostic.problem.code = "chain-label".toList) =
      (Chain.edges line).dropLast.filterMap
        fun edge => edge.label.map fun label => ⟨i + 1, .chainLabel label⟩ := by
  have stands : (Statement.ofSource source)[i]? = some (.chain (Chain.links line)) := by
    rw [Statement.ofSource_eq, List.getElem?_map, here, Option.map_some, Statement.ofLine,
      relationship]
  have shown := filter_lint_line atEnd_of_isChainLabel stands
  rw [problems_chain, List.map_filterMap] at shown
  simp only [Option.map_map] at shown
  simp only [code_chainLabel]
  exact shown

/-- The labels of edges before the last of a chain are reported, one by one and in their order, and
nothing else is reported as one. Where two edges that follow one another have different identifiers
for the operand between them, the label of the first is reported. So if nothing is, the edges are a
trail along the operands. -/
theorem broken_chains_reported {source line : Text} {i : Nat}
    (here : (Line.ofSource source)[i]? = some line)
    (relationship : Line.kind line = .relationship) :
    let links := Chain.links line
    let reports := (lint source).filter fun diagnostic =>
      diagnostic.line = i + 1 ∧ diagnostic.problem.code = "chain-label".toList
    reports = (Chain.edges line).dropLast.filterMap
        (fun edge => edge.label.map fun label => ⟨i + 1, .chainLabel label⟩) ∧
      links.IsChain (fun link next => link.rightEnd = next.leftEnd ∨
        ∃ label, link.edge.label = some label ∧ ⟨i + 1, .chainLabel label⟩ ∈ reports) ∧
      (reports = [] → links.IsChain (fun link next => link.rightEnd = next.leftEnd) ∧
        Chain.Trail (Chain.operandIds links) (Chain.edges line)) := by
  intro links reports
  have exactly : reports = (Chain.edges line).dropLast.filterMap
      fun edge => edge.label.map fun label => ⟨i + 1, .chainLabel label⟩ :=
    filter_chainLabel here relationship
  have labelled : ∀ link ∈ links.dropLast, ∀ label, link.edge.label = some label →
      ⟨i + 1, .chainLabel label⟩ ∈ reports := by
    intro link member label found
    rw [exactly, Chain.edges, ← List.map_dropLast]
    exact List.mem_filterMap.mpr ⟨link.edge, List.mem_map_of_mem member, by rw [found]; rfl⟩
  have joined := Chain.links_connected line
  refine ⟨exactly, ?_, ?_⟩
  · refine Chain.isChain_of_dropLast joined fun link next shared inside => ?_
    cases found : link.edge.label with
    | none => exact .inl (link.rightEnd_eq_leftEnd shared found)
    | some label => exact .inr ⟨label, rfl, labelled link inside label found⟩
  · intro nothing
    have plain : ∀ link ∈ links.dropLast, link.edge.label = none := by
      intro link inside
      by_contra found
      obtain ⟨label, same⟩ := Option.ne_none_iff_exists'.mp found
      have reported := labelled link inside label same
      rw [nothing] at reported
      contradiction
    obtain ⟨trimmed, _⟩ := Line.clean_of_mem_ofSource (List.mem_of_getElem? here)
    refine ⟨Chain.isChain_of_dropLast joined fun link next shared inside =>
      link.rightEnd_eq_leftEnd shared (plain link inside), ?_⟩
    exact Chain.trail_of_unlabelled (Chain.links_ne_nil trimmed relationship) joined plain

/-- A chain with arrows of both kinds and a label at its end. -/
def wholeChain : Text := "'a' > B < c > d: y".toList

theorem broken_chains_reported_of_whole :
    let source := "a > b: x > c\n".toList ++ wholeChain
    (Line.ofSource source)[1]? = some wholeChain ∧ Line.kind wholeChain = .relationship ∧
      Chain.Trail ["a".toList, "b".toList, "c".toList, "d".toList] (Chain.edges wholeChain) := by
  intro source
  have here : (Line.ofSource source)[1]? = some wholeChain := by decide
  have relationship : Line.kind wholeChain = .relationship := by decide
  have links : Chain.links wholeChain = [⟨"'a'".toList, .forward, "B".toList⟩,
      ⟨"B".toList, .backward, "c".toList⟩, ⟨"c".toList, .forward, "d: y".toList⟩] := by cbv
  have ids : Chain.operandIds (Chain.links wholeChain) =
      ["a".toList, "b".toList, "c".toList, "d".toList] := by
    rw [links]
    decide
  have edges : Chain.edges wholeChain = [⟨"a".toList, "b".toList, none⟩,
      ⟨"c".toList, "b".toList, none⟩, ⟨"c".toList, "d".toList, some "y".toList⟩] := by
    rw [Chain.edges, links]
    decide
  obtain ⟨exactly, _, along⟩ := broken_chains_reported here relationship
  refine ⟨here, relationship, ids ▸ (along ?_).2⟩
  rw [exactly, edges]
  rfl

/-- With a label inside, the edges do not meet. -/
example : Chain.edges "a > b: x > c".toList =
    [⟨"a".toList, "b".toList, some "x".toList⟩, ⟨"b_x".toList, "c".toList, none⟩] := by
  cbv

end Lint

end Flowchart
