import Flowchart.Proofs.Cut
import Flowchart.Proofs.Markdown.Places
import Flowchart.Proofs.Markdown.Spelling

/-!
What stands in place of a block in a converted document. The lines between the fence lines are the
lines of the chart behind the indentation of the fence. None of them closes the fence, so the block
ends where its fence line is, and taking the indentation off gives the chart back.
-/
namespace Flowchart

variable {fence : Fence} {line : Text}

namespace Fence

/-- A line without the indentation of the fence. -/
def dedented (fence : Fence) (line : Text) : Text :=
  if line.isEmpty then line else line.drop fence.indent.length

theorem dedented_indented (fence : Fence) (line : Text) :
    fence.dedented (fence.indented line) = line := by
  cases line with
  | nil => rfl
  | cons c rest => simp [indented, dedented]

theorem prefix_indented (fence : Fence) (line : Text) :
    fence.indented line = [] ∨ fence.indent <+: fence.indented line := by
  cases line with
  | nil => exact .inl rfl
  | cons c rest => exact .inr (List.prefix_append fence.indent (c :: rest))

end Fence

namespace Segment

def chartLines (fence : Fence) (markup : Text) : List Text :=
  (Text.lines markup).map fence.indented

theorem compiledLines_eq (fence : Fence) (markup : Text) : compiledLines fence markup =
    (fence.indent ++ fence.ticks ++ "mermaid".toList) ::
      (chartLines fence markup ++ [fence.indent ++ fence.ticks]) := rfl

theorem unlines_dedented (fence : Fence) (markup : Text) :
    Text.unlines ((chartLines fence markup).map fence.dedented) = markup := by
  have each : fence.dedented ∘ fence.indented = id := funext fence.dedented_indented
  rw [chartLines, List.map_map, each, List.map_id, Text.unlines_lines]

end Segment

namespace Markdown

/-- A block in a document, with the lines around it. -/
structure Block (document : Text) where
  front : List Text
  opening : Text
  fence : Fence
  body : List Text
  closing : Text
  behind : List Text
  lines_eq : Text.lines document = front ++ opening :: (body ++ closing :: behind)
  opens : Fence.opening? opening = some fence
  closes : fence.isClosing closing = true
  inside : ∀ line ∈ body, fence.isClosing line = false
  parted : Segment.ofDocument document =
    Segment.ofLines front ++ Segment.block fence body :: Segment.ofLines behind

namespace Block

variable {document : Text}

/-- How many blocks stand in front of a block. -/
def number (block : Block document) : Nat :=
  ((Segment.ofLines block.front).filterMap Segment.source?).length

def source (block : Block document) : Text := block.body.flatMap (· ++ ['\n'])

/-- Every source of a document is that of a block. -/
theorem exists_of_source {k : Nat} {source : Text} (kth : (sources document)[k]? = some source) :
    ∃ block : Block document, block.number = k ∧ block.source = source := by
  obtain ⟨prior, _, cut, place⟩ := Cut.getElem?_eq_some_iff_append.mp kth
  obtain ⟨start, others, parts, before, rest⟩ := List.filterMap_eq_append_iff.mp cut
  obtain ⟨lines, segment, later, shown, plain, given, _⟩ := List.filterMap_eq_cons_iff.mp rest
  cases segment with
  | line text => contradiction
  | block fence body =>
    rw [shown, ← List.append_assoc] at parts
    obtain ⟨front, tail, same, here, there⟩ := Segment.of_ofLines_append parts
    obtain ⟨opening, closing, behind, rfl, opens, closes, inside, others⟩ :=
      Segment.of_ofLines_block there
    have parted : Segment.ofDocument document =
        Segment.ofLines front ++ Segment.block fence body :: Segment.ofLines behind := by
      rw [parts, here, others]
    refine ⟨⟨front, opening, fence, body, closing, behind, same, opens, closes, inside, parted⟩,
      ?_, Option.some.inj given⟩
    rw [number, here, List.filterMap_append, before, List.filterMap_eq_nil_iff.mpr plain,
      List.append_nil, place]

/-- Converting a document converts what is in front of a block, the block, and what is behind it. -/
theorem shown_eq (block : Block document) : shown (Text.lines document) =
    shown block.front ++ Segment.compiledLines block.fence (compile block.source) ++
      shown block.behind := by
  have parted : Segment.ofLines (Text.lines document) = _ := block.parted
  rw [shown, parted, List.flatMap_append, List.flatMap_cons, List.append_assoc]
  rfl

end Block

/-- In place of every block of a document stands a chart between fence lines with the fence of the
block. Up to the last of these lines no line closes the fence, and the lines between them have its
indentation if they are not empty; without it they are what the source of the block compiles to. -/
theorem block_recovered {fault : Option Fault} {document converted : Text}
    (done : convert (compileWith fault) document = .ok converted) (k : Nat) (source : Text)
    (kth : (sources document)[k]? = some source) :
    ∃ (block : Block document) (chart : List Text), block.number = k ∧ block.source = source ∧
      block.fence.indent ++ block.fence.ticks <+: block.opening ∧
      Text.lines converted =
        shown block.front ++ (block.fence.indent ++ block.fence.ticks ++ "mermaid".toList) ::
          (chart ++ (block.fence.indent ++ block.fence.ticks) :: shown block.behind) ∧
      (∀ line ∈ chart, block.fence.isClosing line = false) ∧
      (∀ line ∈ chart, line = [] ∨ block.fence.indent <+: line) ∧
      block.fence.isClosing (block.fence.indent ++ block.fence.ticks) = true ∧
      compileWith fault source = .ok (Text.unlines (chart.map block.fence.dedented)) := by
  obtain ⟨block, number, rfl⟩ := Block.exists_of_source kth
  have legal : block.fence.Legal := Fence.legal_of_opening? block.opens
  refine ⟨block, Segment.chartLines block.fence (compile block.source), number, rfl,
    Fence.prefix_of_opening? block.opens, ?_, ?_, ?_, block.fence.isClosing_self, ?_⟩
  · rw [lines_converted done, block.shown_eq, Segment.compiledLines_eq]
    simp only [List.append_assoc, List.cons_append, List.nil_append]
  · refine List.forall_mem_map.mpr fun line inside => ?_
    have plain := legal.tickless_indented (tickless_compile block.source line inside)
    exact plain.isClosing_eq_false legal
  · exact List.forall_mem_map.mpr fun line _ => block.fence.prefix_indented line
  · rw [Segment.unlines_dedented]
    exact compiled_of_convert done block.source (List.mem_of_getElem? kth)

/-- The second of two blocks, indented, with a title and a label that are runs of the fence. -/
theorem block_recovered_of_runs :
    let document := Text.unlines ["~~~flowdsl".toList, "A".toList, "~~~".toList,
      "  ~~~~FlowDSL".toList, "title ~~~~".toList, "~~~~ > B".toList, "  ~~~~ ".toList]
    let converted := Text.unlines ["~~~mermaid".toList, "flowchart TB".toList,
      "  a[\x22A\x22]".toList, "~~~".toList, "  ~~~~mermaid".toList, "  flowchart TB".toList,
      "    %% ~~~~".toList, [], "     --> b".toList, "  ~~~~".toList]
    let source := "title ~~~~\n~~~~ > B\n".toList
    convert (compileWith none) document = .ok converted ∧ (sources document)[1]? = some source ∧
    ∃ (block : Block document) (chart : List Text), block.number = 1 ∧ block.source = source ∧
      block.fence.indent ++ block.fence.ticks <+: block.opening ∧
      Text.lines converted =
        shown block.front ++ (block.fence.indent ++ block.fence.ticks ++ "mermaid".toList) ::
          (chart ++ (block.fence.indent ++ block.fence.ticks) :: shown block.behind) ∧
      (∀ line ∈ chart, block.fence.isClosing line = false) ∧
      (∀ line ∈ chart, line = [] ∨ block.fence.indent <+: line) ∧
      block.fence.isClosing (block.fence.indent ++ block.fence.ticks) = true ∧
      compileWith none source = .ok (Text.unlines (chart.map block.fence.dedented)) := by
  intro document converted source
  have segments : Segment.ofDocument document =
      [.block ⟨[], "~~~".toList⟩ ["A".toList],
        .block ⟨Mermaid.indent, "~~~~".toList⟩ ["title ~~~~".toList, "~~~~ > B".toList]] := by
    decide +kernel
  have done : convert (compileWith none) document = .ok converted := by
    rw [convert, segments]
    decide +kernel
  have kth : (sources document)[1]? = some source := by
    rw [sources, segments]
    decide +kernel
  exact ⟨done, kth, block_recovered done 1 source kth⟩

end Markdown

end Flowchart
