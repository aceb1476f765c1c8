import Flowchart.Compile
import Flowchart.Proofs.Lint.Walk
import Flowchart.Proofs.Reading.Spacing

/-!
The linter on lines with other numbers. What it finds depends on the lines that say something and on
their order; their numbers go into the diagnostics as they are. So lines that say nothing do no more
than move the numbers.
-/
namespace Flowchart.Lint

def Diagnostic.renumber (renumber : Nat → Nat) (diagnostic : Diagnostic) : Diagnostic :=
  { diagnostic with line := renumber diagnostic.line }

namespace State

def renumber (renumber : Nat → Nat) (state : State) : State :=
  { state with
    ends := state.ends.map (Prod.map id renumber)
    openGroup := state.openGroup.map (Prod.map id renumber) }

/-- The numbers of lines that a state holds. -/
def numbers (state : State) : List Nat :=
  state.ends.map (·.2) ++ (state.openGroup.map (·.2)).toList

variable {state : State}

theorem apply_renumber (renumber : Nat → Nat) (state : State) (number : Nat)
    (statement : Statement) :
    (state.renumber renumber).apply (renumber number) statement =
      (state.apply number statement).renumber renumber := by
  cases statement with
  | chain links =>
    simp only [apply, State.renumber, List.map_append, List.map_flatMap, List.map_cons,
      List.map_nil, Prod.map_apply, id_eq]
  | nothing | title | direction | close | group | node | unreadableGroup | unspacedArrow => rfl

theorem mem_numbers_apply {number other : Nat} {statement : Statement}
    (member : other ∈ (state.apply number statement).numbers) :
    other ∈ state.numbers ∨ other = number := by
  cases statement with
  | close => exact .inl (List.mem_append_left _ (by simpa [numbers, apply] using member))
  | chain links =>
    simp only [numbers, apply, List.map_append, List.mem_append, List.mem_map, List.mem_flatMap,
      List.mem_cons, List.not_mem_nil, or_false] at member ⊢
    rcases member with (old | ⟨place, ⟨edge, _, same | same⟩, rfl⟩) | group
    · exact .inl (.inl old)
    · exact .inr (same ▸ rfl)
    · exact .inr (same ▸ rfl)
    · exact .inl (.inr group)
  | group declaration =>
    rcases List.mem_append.mp member with old | new
    · exact .inl (List.mem_append_left _ old)
    · exact .inr (List.mem_singleton.mp new)
  | nothing | title | direction | node | unreadableGroup | unspacedArrow => exact .inl member

end State

theorem problems_renumber (renumber : Nat → Nat) (state : State) (statement : Statement) :
    problems (state.renumber renumber) statement = problems state statement := by
  cases statement with
  | close | group =>
    cases shown : state.openGroup <;> simp [problems, State.renumber, shown] <;> rfl
  | nothing | title | direction | chain | node | unreadableGroup | unspacedArrow => rfl

theorem closing_renumber (renumber : Nat → Nat) (state : State) :
    closing (state.renumber renumber) = (closing state).map (·.renumber renumber) := by
  have dangling : (state.renumber renumber).dangling =
      state.dangling.map (·.renumber renumber) := by
    rw [State.dangling, State.dangling, State.renumber, List.filter_map, List.map_map, List.map_map]
    rfl
  rw [closing_eq, closing_eq, dangling, List.map_append]
  cases shown : state.openGroup <;> simp [State.renumber, shown, Diagnostic.renumber]

theorem line_of_mem_closing {state : State} {diagnostic : Diagnostic}
    (member : diagnostic ∈ closing state) : diagnostic.line ∈ state.numbers := by
  rw [closing_eq] at member
  rcases List.mem_append.mp member with left | dangling
  · obtain ⟨group, shown, rfl⟩ := Option.map_eq_some_iff.mp (Option.mem_toList.mp left)
    exact List.mem_append_right _ (by simp [shown])
  · obtain ⟨place, known, rfl⟩ := List.mem_map.mp dangling
    exact List.mem_append_left _ (List.mem_map.mpr ⟨place, (List.mem_filter.mp known).1, rfl⟩)

/-! ### Lines with any numbers -/

/-- What is found on lines that carry their numbers. -/
def findIn (state : State) : List (Text × Nat) → List Diagnostic
  | [] => closing state
  | place :: rest =>
    (problems state (Statement.ofLine place.1)).map (⟨place.2, ·⟩) ++
      findIn (state.apply place.2 (Statement.ofLine place.1)) rest

theorem findFrom_eq_findIn (state : State) (number : Nat) (lines : List Text) :
    findFrom state number (lines.map Statement.ofLine) = findIn state (lines.zipIdx number) := by
  induction lines generalizing state number with
  | nil => rfl
  | cons line rest ih => rw [List.map_cons, findFrom, List.zipIdx_cons, findIn, ih]

theorem findIn_filter (state : State) (places : List (Text × Nat)) :
    findIn state (places.filter (!Line.isSilent ·.1)) = findIn state places := by
  induction places generalizing state with
  | nil => rfl
  | cons place rest ih =>
    cases silent : Line.isSilent place.1 with
    | true =>
      rw [List.filter_cons_of_neg (by simp [silent]), findIn, Line.ofLine_silent silent, ih]
      rfl
    | false => rw [List.filter_cons_of_pos (by simp [silent]), findIn, findIn, ih]

theorem findIn_renumber (renumber : Nat → Nat) (state : State) (places : List (Text × Nat)) :
    findIn (state.renumber renumber) (places.map (Prod.map id renumber)) =
      (findIn state places).map (·.renumber renumber) := by
  induction places generalizing state with
  | nil => exact closing_renumber renumber state
  | cons place rest ih =>
    rw [List.map_cons, findIn, findIn, List.map_append, List.map_map, ← ih,
      ← State.apply_renumber, Prod.map_fst, Prod.map_snd, id_eq, problems_renumber]
    rfl

theorem line_of_mem_findIn {state : State} {places : List (Text × Nat)} {diagnostic : Diagnostic}
    (member : diagnostic ∈ findIn state places) :
    diagnostic.line ∈ state.numbers ∨ diagnostic.line ∈ places.map (·.2) := by
  induction places generalizing state with
  | nil => exact .inl (line_of_mem_closing member)
  | cons place rest ih =>
    rcases List.mem_append.mp member with here | later
    · obtain ⟨problem, _, rfl⟩ := List.mem_map.mp here
      exact .inr List.mem_cons_self
    · rcases ih later with held | behind
      · rcases State.mem_numbers_apply held with old | new
        · exact .inl old
        · exact .inr (new ▸ List.mem_cons_self)
      · exact .inr (List.mem_cons_of_mem _ behind)

theorem find_spoken (source : Text) : find source = findIn {} (Line.spoken source) := by
  rw [find, Statement.ofSource_eq, findFrom_eq_findIn, Line.spoken, findIn_filter]

/-- Every diagnostic stands on a line that says something. -/
theorem line_mem_spokenNumbers {source : Text} {diagnostic : Diagnostic}
    (member : diagnostic ∈ find source) : diagnostic.line ∈ Line.spokenNumbers source := by
  rw [find_spoken] at member
  rcases line_of_mem_findIn member with held | shown
  · exact absurd held List.not_mem_nil
  · exact shown

/-! ### Order-preserving renumberings -/

/-- One list of rising numbers can be mapped to another of the same length, number by number. -/
theorem exists_renumbering {old new : List Nat} (length : old.length = new.length)
    (rising : old.Pairwise (· < ·)) (also : new.Pairwise (· < ·)) :
    ∃ renumber : Nat → Nat, old.map renumber = new ∧
      ∀ a ∈ old, ∀ b ∈ old, a < b → renumber a < renumber b := by
  have distinct : old.Nodup := rising.imp Nat.ne_of_lt
  have place (i : Nat) (bound : i < old.length) :
      new.getD (old.idxOf old[i]) 0 = new[i] := by
    rw [distinct.idxOf_getElem i bound, List.getD_eq_getElem?_getD,
      List.getElem?_eq_getElem (length ▸ bound), Option.getD_some]
  refine ⟨fun number => new.getD (old.idxOf number) 0, ?_, ?_⟩
  · apply List.ext_getElem (by rw [List.length_map, length])
    intro i bound _
    rw [List.getElem_map, place]
  · intro a first b second less
    obtain ⟨i, early, rfl⟩ := List.getElem_of_mem first
    obtain ⟨j, late, rfl⟩ := List.getElem_of_mem second
    have order : i < j := by
      by_contra back
      rcases Nat.lt_or_eq_of_le (Nat.le_of_not_lt back) with before | rfl
      · have more := List.pairwise_iff_getElem.mp rising j i late early before
        omega
      · omega
    simp only [place]
    exact List.pairwise_iff_getElem.mp also i j _ _ order

/-- Sorting by line does not see an order-preserving renumbering. -/
theorem lint_renumber {source other : Text} {renumber : Nat → Nat}
    (found : find other = (find source).map (·.renumber renumber))
    (rising : ∀ a ∈ Line.spokenNumbers source, ∀ b ∈ Line.spokenNumbers source,
      a < b → renumber a < renumber b) :
    lint other = (lint source).map (·.renumber renumber) := by
  rw [lint, lint, found]
  refine (List.map_mergeSort ?_).symm
  intro first known second also
  have here := line_mem_spokenNumbers known
  have there := line_mem_spokenNumbers also
  apply decide_eq_decide.mpr
  rcases Nat.lt_trichotomy first.line second.line with less | same | more
  · have kept := rising _ here _ there less
    simp only [Diagnostic.renumber]
    omega
  · simp only [Diagnostic.renumber, same, Nat.le_refl]
  · have kept := rising _ there _ here more
    simp only [Diagnostic.renumber]
    omega

/-- Blanks at the ends of lines, empty lines and comments do not matter. Two sources that differ in
nothing else are read alike and compile to the same chart, and the linter has the same to say of
them in the same order, on the same lines: an order-preserving renumbering takes the lines that say
something in the one source to those in the other, and the diagnostics, which stand on such lines
only, to the diagnostics. -/
theorem spacing_irrelevant {source other : Text}
    (respaced : Respaced (Text.lines source) (Text.lines other)) :
    Reading.ofSource source = Reading.ofSource other ∧
      compile source = compile other ∧
      (Line.spoken source).map (·.1) = (Line.spoken other).map (·.1) ∧
      ∃ renumber : Nat → Nat,
        (Line.spokenNumbers source).map renumber = Line.spokenNumbers other ∧
        (∀ a ∈ Line.spokenNumbers source, ∀ b ∈ Line.spokenNumbers source,
          a < b → renumber a < renumber b) ∧
        (∀ diagnostic ∈ lint source, diagnostic.line ∈ Line.spokenNumbers source) ∧
        lint other = (lint source).map (·.renumber renumber) := by
  have same : (Line.spoken source).map (·.1) = (Line.spoken other).map (·.1) := by
    rw [Line.spoken_fst, Line.spoken_fst]
    exact respaced.spoken
  have read : Reading.ofSource source = Reading.ofSource other := by
    rw [Reading.ofSource_spoken, same, ← Reading.ofSource_spoken]
  refine ⟨read, ?_, same, ?_⟩
  · rw [compile, Diagram.ofSource, read]
    rfl
  · have length : (Line.spokenNumbers source).length = (Line.spokenNumbers other).length := by
      simpa [Line.spokenNumbers] using congrArg List.length same
    obtain ⟨renumber, moved, rising⟩ := exists_renumbering length
      (Line.spokenNumbers_sorted source) (Line.spokenNumbers_sorted other)
    have places : Line.spoken other = (Line.spoken source).map (Prod.map id renumber) := by
      calc
        Line.spoken other =
            ((Line.spoken source).map (·.1)).zip ((Line.spokenNumbers source).map renumber) :=
          List.zip_of_prod same.symm moved.symm
        _ = (((Line.spoken source).map (·.1)).zip ((Line.spoken source).map (·.2))).map
            (Prod.map id renumber) := List.zip_map_right
        _ = (Line.spoken source).map (Prod.map id renumber) := by
          rw [← List.zip_of_prod rfl rfl]
    have found : find other = (find source).map (·.renumber renumber) := by
      rw [find_spoken, find_spoken, places, ← findIn_renumber]
      rfl
    refine ⟨renumber, moved, rising, ?_, lint_renumber found rising⟩
    intro diagnostic member
    exact line_mem_spokenNumbers ((lint_perm source).mem_iff.mp member)

/-- Tabs, a carriage return, a wide blank, an empty line and two comments more, and another comment
less. -/
theorem spacing_irrelevant_of_comments :
    let source := Text.unlines ["// draft".toList, "title T".toList, "A > B".toList,
      "\x7d".toList, "G \x7b".toList]
    let other := Text.unlines ["\ttitle T\r".toList, "".toList, "  // first".toList,
      "\u2003A > B".toList, "//".toList, "\x7d ".toList, "G \x7b".toList]
    Respaced (Text.lines source) (Text.lines other) ∧
      Reading.ofSource source = Reading.ofSource other ∧
      compile source = compile other ∧
      (Line.spoken source).map (·.1) = (Line.spoken other).map (·.1) ∧
      ∃ renumber : Nat → Nat,
        (Line.spokenNumbers source).map renumber = Line.spokenNumbers other ∧
        (∀ a ∈ Line.spokenNumbers source, ∀ b ∈ Line.spokenNumbers source,
          a < b → renumber a < renumber b) ∧
        (∀ diagnostic ∈ lint source, diagnostic.line ∈ Line.spokenNumbers source) ∧
        lint other = (lint source).map (·.renumber renumber) := by
  have respaced : Respaced
      (Text.lines (Text.unlines ["// draft".toList, "title T".toList, "A > B".toList,
        "\x7d".toList, "G \x7b".toList]))
      (Text.lines (Text.unlines ["\ttitle T\r".toList, "".toList, "  // first".toList,
        "\u2003A > B".toList, "//".toList, "\x7d ".toList, "G \x7b".toList])) := by
    rw [Text.lines_unlines (by decide) (by decide), Text.lines_unlines (by decide) (by decide)]
    exact .delete rfl (.line rfl (.insert rfl (.insert rfl (.line rfl (.insert rfl
      (.line rfl (.line rfl .nil)))))))
  exact ⟨respaced, spacing_irrelevant respaced⟩

end Flowchart.Lint
