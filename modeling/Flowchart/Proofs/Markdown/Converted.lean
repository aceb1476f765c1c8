import Flowchart.Proofs.Except
import Flowchart.Proofs.Fence
import Flowchart.Proofs.Markdown.Fences
import Flowchart.Proofs.Mermaid.Rows

/-!
No block is left in a converted document. The lines of a chart have no fence, the fence lines around
it open nothing and close only their own fence, and that fence closed a block before; so an opening
line without its closing line stays without one.
-/
namespace Flowchart

open Mermaid (indent)

/-! ### The lines of a chart -/

theorem Fence.isTick_of_isLetter {c : Char} (letter : Ident.isLetter c = true) :
    isTick c = false := by
  by_contra tick
  rw [Bool.not_eq_false, isTick, Bool.or_eq_true, beq_iff_eq, beq_iff_eq] at tick
  rcases tick with rfl | rfl <;> contradiction

namespace Visible

open Fence (Tickless tickless_append tickless_cons tickless_of_free tickless_of_head isTick
  isTick_of_isLetter)

theorem tickless_indent {after : Text} (plain : Tickless after) : Tickless (indent ++ after) := by
  have spaces : indent.all Fence.isSpace = true := rfl
  exact tickless_append
    (fun c space => Fence.isTick_of_isSpace (List.all_eq_true.mp spaces c space)) plain

/-- Behind an indentation and an identifier, what follows decides. -/
theorem tickless_word {word after : Text} (spelled : Ident.Spelled word) (plain : Tickless after) :
    Tickless (indent ++ word ++ after) := by
  rw [List.append_assoc]
  exact tickless_indent
    (tickless_append (fun c letter => isTick_of_isLetter (spelled c letter)) plain)

theorem Box.Safe.tickless {box : Box} (safe : box.Safe) : Tickless box.line := by
  have table : ∀ pair ∈ Shape.brackets.values,
      (pair.1.head?.any fun c => !Fence.isSpace c && !isTick c) = true := by decide
  obtain ⟨c, first, plain⟩ := (Option.any_eq_true _ _).mp (table box.brackets safe.brackets)
  obtain ⟨rest, opening⟩ := List.head?_eq_some_iff.mp first
  rw [Bool.and_eq_true, Bool.not_eq_true', Bool.not_eq_true'] at plain
  have line : box.line = indent ++ box.id ++
      (c :: (rest ++ Mermaid.inQuotes box.label ++ box.brackets.2)) := by
    simp only [Box.line, opening, List.append_assoc, List.cons_append]
  rw [line]
  exact tickless_word safe.id (tickless_cons plain.1 plain.2)

theorem tickless_edgeLine {edge : Edge} (sound : edge.Sound) :
    Tickless (Mermaid.edgeLine edge) := by
  rw [edgeLine_eq sound]
  refine tickless_word sound.source_spelled ?_
  unfold behindSource
  split
  · exact tickless_of_head rfl rfl
  · exact tickless_of_head rfl rfl

theorem Safe.tickless {visible : Visible} (safe : visible.Safe) :
    ∀ row ∈ visible.rows, Tickless row.text := by
  refine forall_mem_rows ?_ ?_ ?_ ?_ ?_ ?_ ?_
  · intro row plain _
    cases row with
    | blank => nofun
    | header | title | closing => exact tickless_of_head rfl rfl
    | box | opening | member | edge | boxFill | frameFill => contradiction
  · intro box known
    exact (safe.boxes box known).tickless
  · intro frame _
    exact tickless_of_head rfl rfl
  · intro frame known id member
    have letters : Ident.Spelled id := (safe.frames frame known).members id member
    have free : Tickless id :=
      tickless_of_free fun c inside => isTick_of_isLetter (letters c inside)
    have text : (Row.member id).text = indent ++ (indent ++ id) := rfl
    rw [text]
    exact tickless_indent (tickless_indent free)
  · intro edge known
    exact tickless_edgeLine (safe.edges edge known)
  · intro fill _
    exact tickless_of_head rfl rfl
  · intro fill _
    exact tickless_of_head rfl rfl

end Visible

theorem tickless_compile (source : Text) :
    ∀ line ∈ Text.lines (compile source), Fence.Tickless line := by
  have safe : (Diagram.ofSource source).visible.Safe := (Diagram.sound_ofSource source).visible_safe
  rw [lines_compile]
  exact List.forall_mem_map.mpr safe.tickless

/-! ### The lines of a compiled block -/

namespace Segment

variable {fence other : Fence} {markup line : Text} {lines : List Text}
  {pieces : List (List Text)} {result : Text → Text → Prop}

theorem mem_compiledLines (legal : fence.Legal)
    (plain : ∀ line ∈ Text.lines markup, Fence.Tickless line)
    (member : line ∈ compiledLines fence markup) :
    line = fence.indent ++ fence.ticks ++ "mermaid".toList ∨ Fence.Tickless line ∨
      line = fence.indent ++ fence.ticks := by
  rw [compiledLines, List.mem_append, List.mem_append, List.mem_singleton, List.mem_singleton,
    or_assoc] at member
  refine member.imp_right (Or.imp_left fun inside => ?_)
  obtain ⟨text, known, rfl⟩ := List.mem_map.mp inside
  exact legal.tickless_indented (plain text known)

theorem opening?_of_mem_compiledLines (legal : fence.Legal)
    (plain : ∀ line ∈ Text.lines markup, Fence.Tickless line)
    (member : line ∈ compiledLines fence markup) : Fence.opening? line = none := by
  rcases mem_compiledLines legal plain member with rfl | free | rfl
  · exact legal.opening?_chart
  · exact free.opening?_eq_none
  · exact legal.opening?_of_isClosing fence.isClosing_self

/-- A line of a compiled block closes no fence but its own. -/
theorem eq_of_isClosing_compiledLines (legal : fence.Legal) (also : other.Legal)
    (plain : ∀ line ∈ Text.lines markup, Fence.Tickless line)
    (member : line ∈ compiledLines fence markup) (closes : other.isClosing line = true) :
    other = fence := by
  rcases mem_compiledLines legal plain member with rfl | free | rfl
  · have letter : 'm' ∈ fence.indent ++ fence.ticks ++ "mermaid".toList :=
      List.mem_append_right _ List.mem_cons_self
    exact absurd (also.mem_of_isClosing closes 'm' letter) (by decide)
  · rw [free.isClosing_eq_false also] at closes
    contradiction
  · exact also.eq_of_isClosing legal closes fence.isClosing_self

/-! ### Segments that stay apart -/

/-- The second line does not close a block that the first one opens. -/
def Apart (line later : Text) : Prop :=
  ∀ fence, Fence.opening? line = some fence → fence.isClosing later = false

theorem close?_eq_none_iff :
    fence.close? lines = none ↔ ∀ line ∈ lines, fence.isClosing line = false := by
  induction lines with
  | nil => simp [Fence.close?]
  | cons line rest ih =>
    rw [Fence.close?, List.forall_mem_cons]
    split
    · simp_all
    · simp_all

/-- A first line stays a segment of its own where nothing that it opens is closed. -/
theorem ofLines_of_open (unclosed : ∀ later ∈ lines, Apart line later) :
    ofLines (line :: lines) = Segment.line line :: ofLines lines := by
  cases opens : Fence.opening? line with
  | none => exact ofLines_of_plain opens
  | some fence =>
    have never : fence.close? lines = none :=
      close?_eq_none_iff.mpr fun later inside => unclosed later inside fence opens
    exact ofLines_of_unclosed opens never

theorem ofLines_of_apart (apart : lines.Pairwise Apart) :
    ofLines lines = lines.map Segment.line := by
  induction apart with
  | nil => rw [ofLines, List.map_nil]
  | cons unclosed _ ih => rw [ofLines_of_open unclosed, ih, List.map_cons]

/-- A line that opens nothing is apart from what follows it. -/
theorem apart_of_plain {later : Text} (plain : Fence.opening? line = none) : Apart line later := by
  intro fence opens
  rw [plain] at opens
  contradiction

theorem apart_append {front back : List Text} (plain : ∀ line ∈ front, Fence.opening? line = none)
    (later : back.Pairwise Apart) : (front ++ back).Pairwise Apart := by
  induction front with
  | nil => exact later
  | cons line rest ih =>
    obtain ⟨first, others⟩ := List.forall_mem_cons.mp plain
    exact .cons (fun _ _ => apart_of_plain first) (ih others)

section Standing

variable (plain : ∀ {source markup}, result source markup →
  ∀ line ∈ Text.lines markup, Fence.Tickless line)
include plain

/-- Compiling blocks closes no fence that the lines leave open. -/
theorem unclosed_of_compiles (legal : other.Legal) {shown : List Text}
    (edited : Edited (Compiles result) lines shown)
    (unclosed : ∀ line ∈ lines, other.isClosing line = false) :
    ∀ line ∈ shown, other.isClosing line = false := by
  refine edited.forall_mem ?_ unclosed
  rintro _ _ ⟨fence, body, markup, encloses, given, rfl⟩ within line member
  obtain ⟨opening, closing, rfl, opens, closes⟩ := encloses.fenced
  by_contra shut
  -- A line that closes the fence has it, and then the closing line of the block closes it too.
  have same := eq_of_isClosing_compiledLines (Fence.legal_of_opening? opens) legal
    (plain given) member (Bool.not_eq_false _ ▸ shut)
  have last := within closing (by simp)
  rw [same, closes] at last
  contradiction

theorem apart_flatten (standing : List.Forall₂ (Stands result) (ofLines lines) pieces) :
    pieces.flatten.Pairwise Apart := by
  induction lines using ofLines.induct generalizing pieces with
  | case1 =>
    rw [ofLines] at standing
    cases standing
    exact .nil
  | case2 first rest bare ih =>
    rw [ofLines_of_plain bare] at standing
    cases standing with
    | cons stands later =>
      cases stands
      exact .cons (fun _ _ => apart_of_plain bare) (ih later)
  | case3 first rest fence opens unclosed ih =>
    rw [ofLines_of_unclosed opens unclosed] at standing
    cases standing with
    | cons stands later =>
      cases stands
      refine .cons ?_ (ih later)
      intro line inside other known
      obtain rfl := Option.some.inj (opens.symm.trans known)
      exact unclosed_of_compiles plain (Fence.legal_of_opening? opens)
        (edited_of_stands (divides_ofLines rest) later) (close?_eq_none_iff.mp unclosed) line inside
  | case4 first rest fence opens body after closed _ ih =>
    rw [ofLines_of_closed opens closed] at standing
    cases standing with
    | cons stands later =>
      cases stands with
      | block given =>
        refine apart_append ?_ (ih later)
        intro line inside
        exact opening?_of_mem_compiledLines (Fence.legal_of_opening? opens) (plain given) inside

end Standing

theorem single_line_compiledLines (legal : fence.Legal) (markup : Text) :
    ∀ line ∈ compiledLines fence markup, '\n' ∉ line := by
  obtain ⟨indent, ticks⟩ := not_or.mp (mt List.mem_append.mpr legal.single_line)
  intro line member
  rw [compiledLines, List.mem_append, List.mem_append, List.mem_singleton, List.mem_singleton]
    at member
  rcases member with (rfl | chart) | rfl
  · simp [indent, ticks]
  · obtain ⟨text, known, rfl⟩ := List.mem_map.mp chart
    have single := Text.not_mem_of_mem_lines known
    split
    · exact single
    · simp [indent, single]
  · exact legal.single_line

theorem single_line_of_compiles {shown : List Text}
    (edited : Edited (Compiles result) lines shown) (single : ∀ line ∈ lines, '\n' ∉ line) :
    ∀ line ∈ shown, '\n' ∉ line := by
  refine edited.forall_mem ?_ single
  rintro _ _ ⟨fence, body, markup, encloses, _, rfl⟩ _
  obtain ⟨_, _, _, opens, _⟩ := encloses.fenced
  exact single_line_compiledLines (Fence.legal_of_opening? opens) markup

theorem compiles_ne_nil {old new : List Text} (compiles : Compiles result old new) : new ≠ [] := by
  obtain ⟨fence, body, markup, _, _, rfl⟩ := compiles
  exact List.cons_ne_nil _ _

theorem stands_of_convert {fault : Option Fault} {segment : Segment} {piece : List Text}
    (converts : convert (compileWith fault) segment = .ok piece) :
    Stands (compileWith fault · = .ok ·) segment piece := by
  cases segment with
  | line text => exact Except.ok.inj converts ▸ .line text
  | block fence body =>
    obtain ⟨markup, given, same⟩ := ok_of_bind converts
    exact Except.ok.inj same ▸ .block given

end Segment

/-- A chain of steps over a list gives what each step gives, in the order of the list. -/
theorem forall₂_of_mapM {ε α β : Type} {step : α → Except ε β} {list : List α} {results : List β}
    (ran : list.mapM step = .ok results) :
    List.Forall₂ (fun a b => step a = .ok b) list results := by
  induction list generalizing results with
  | nil =>
    rw [← Except.ok.inj ran]
    exact .nil
  | cons a rest ih =>
    rw [List.mapM_cons] at ran
    obtain ⟨b, first, behind⟩ := ok_of_bind ran
    obtain ⟨later, others, whole⟩ := ok_of_bind behind
    rw [← Except.ok.inj whole]
    exact .cons first (ih others)

namespace Markdown

open Segment (Apart Stands)

variable {document converted : Text} {fault : Option Fault}

/-- The lines of a converted document are those that stand for its segments. -/
theorem lines_of_convert (done : convert (compileWith fault) document = .ok converted) :
    ∃ pieces, List.Forall₂ (Stands (compileWith fault · = .ok ·)) (Segment.ofDocument document)
      pieces ∧ Text.lines converted = pieces.flatten := by
  obtain ⟨pieces, ran, shown⟩ := ok_of_bind done
  have standing := (forall₂_of_mapM ran).imp fun _ _ => Segment.stands_of_convert
  have edited := Segment.edited_of_stands (Segment.divides_ofLines (Text.lines document)) standing
  refine ⟨pieces, standing, ?_⟩
  rw [← Except.ok.inj shown]
  refine Text.lines_unlines ?_ (edited.ne_nil Segment.compiles_ne_nil ?_)
  · exact Segment.single_line_of_compiles edited fun line => Text.not_mem_of_mem_lines
  · exact List.splitOn_ne_nil _ _

theorem ofDocument_of_apart (apart : (Text.lines document).Pairwise Apart) :
    Segment.ofDocument document = (Text.lines document).map .line :=
  Segment.ofLines_of_apart apart

theorem sources_of_apart (apart : (Text.lines document).Pairwise Apart) :
    sources document = [] := by
  rw [sources, ofDocument_of_apart apart, List.filterMap_map]
  exact List.filterMap_eq_nil_iff.mpr fun _ _ => rfl

theorem convert_of_apart {m : Type → Type} [Monad m] [LawfulMonad m] (compile : Text → m Text)
    (apart : (Text.lines document).Pairwise Apart) : convert compile document = pure document := by
  have each : Segment.convert compile ∘ Segment.line = fun text => pure [text] := rfl
  rw [convert, ofDocument_of_apart apart, List.mapM_map, each, List.mapM_pure, pure_bind,
    ← List.flatMap_def, List.flatMap_singleton', Text.unlines_lines]

/-- The document that converting gives has no block, so converting it again, with any compiler,
gives it back. -/
theorem convert_convert (fault : Option Fault) (document converted : Text)
    (done : convert (compileWith fault) document = .ok converted) :
    sources converted = [] ∧ ∀ again : Option Fault,
      convert (compileWith again) converted = .ok converted := by
  obtain ⟨pieces, standing, lines⟩ := lines_of_convert done
  have plain : ∀ {source markup : Text}, compileWith fault source = .ok markup →
      ∀ line ∈ Text.lines markup, Fence.Tickless line := by
    intro source markup given
    cases fault with
    | some cause => contradiction
    | none => exact Except.ok.inj given ▸ tickless_compile source
  have apart : (Text.lines converted).Pairwise Apart := by
    rw [lines]
    exact Segment.apart_flatten plain standing
  exact ⟨sources_of_apart apart, fun again => convert_of_apart (compileWith again) apart⟩

/-- An opening line that stays without its closing line, and an indented block behind it. -/
theorem convert_convert_of_unclosed :
    let document := Text.unlines ["~~~~ flowdsl".toList, "  ~~~FlowDSL\t".toList,
      "  A".toList, "  ~~~ \r".toList, "~~~".toList]
    let converted := Text.unlines ["~~~~ flowdsl".toList, "  ~~~mermaid".toList,
      "  flowchart TB".toList, "    a[\x22A\x22]".toList, "  ~~~".toList, "~~~".toList]
    convert (compileWith none) document = .ok converted ∧
      sources converted = [] ∧ ∀ again : Option Fault,
        convert (compileWith again) converted = .ok converted := by
  have segments : Segment.ofDocument (Text.unlines ["~~~~ flowdsl".toList,
      "  ~~~FlowDSL\t".toList, "  A".toList, "  ~~~ \r".toList, "~~~".toList]) =
      [.line "~~~~ flowdsl".toList, .block ⟨Mermaid.indent, ['~', '~', '~']⟩ ["  A".toList],
        .line "~~~".toList] := by
    decide +kernel
  have done : convert (compileWith none) (Text.unlines ["~~~~ flowdsl".toList,
      "  ~~~FlowDSL\t".toList, "  A".toList, "  ~~~ \r".toList, "~~~".toList]) =
      .ok (Text.unlines ["~~~~ flowdsl".toList, "  ~~~mermaid".toList,
        "  flowchart TB".toList, "    a[\x22A\x22]".toList, "  ~~~".toList, "~~~".toList]) := by
    rw [convert, segments]
    decide +kernel
  exact ⟨done, convert_convert none _ _ done⟩

end Markdown

end Flowchart
