import Flowchart.Proofs.Markdown.Places

/-!
Fenced blocks in other languages. Converting knows the fences of chart sources only, wherever they
stand: lines are kept where no block begins among them, and a block that begins inside of a fenced
block in another language is converted like any other.
-/
namespace Flowchart

open Segment (Apart)

variable {fence : Fence} {front lines behind body : List Text} {text info closing : Text}
  {segments : List Segment} {n : Nat}

namespace Segment

/-- For each line of a segment whether it lies in a block. -/
def covered : Segment → List Bool
  | line _ => [false]
  | block _ body => List.replicate (body.length + 2) true

theorem length_covered (divides : Divides lines segments) :
    (segments.flatMap covered).length = lines.length := by
  induction divides with
  | nil => rfl
  | line first _ ih => simpa [covered] using ih
  | block encloses _ ih =>
    obtain ⟨opening, closing, rfl, _⟩ := encloses.fenced
    rw [List.flatMap_cons, List.length_append, ih]
    simp only [covered, List.length_replicate, List.length_append, List.length_cons,
      List.length_nil]

/-- Outside of blocks stands a line of its own. -/
theorem line_of_covered (outside : (segments.flatMap covered)[n]? = some false) :
    ∃ first text later, segments = first ++ line text :: later ∧
      (first.flatMap covered).length = n := by
  induction segments generalizing n with
  | nil => contradiction
  | cons segment rest ih =>
    have skipped {m : Nat} (size : segment.covered.length + m = n)
        (later : (rest.flatMap covered)[m]? = some false) :
        ∃ first text later, segment :: rest = first ++ line text :: later ∧
          (first.flatMap covered).length = n := by
      obtain ⟨first, text, others, rfl, here⟩ := ih later
      exact ⟨segment :: first, text, others, rfl, by simp [← size, here]⟩
    rw [List.flatMap_cons] at outside
    by_cases within : n < segment.covered.length
    · rw [List.getElem?_append_left within] at outside
      cases segment with
      | line text =>
        obtain rfl : n = 0 := Nat.lt_one_iff.mp within
        exact ⟨[], text, rest, rfl, rfl⟩
      | block fence body =>
        have inside := List.eq_of_mem_replicate (List.mem_of_getElem? outside)
        contradiction
    · rw [List.getElem?_append_right (Nat.le_of_not_lt within)] at outside
      exact skipped (Nat.add_sub_of_le (Nat.le_of_not_lt within)) outside

end Segment

namespace Markdown

/-- For each line of a document whether it lies in a block. -/
def covered (lines : List Text) : List Bool := (Segment.ofLines lines).flatMap Segment.covered

/-- A line outside of blocks parts what is in front of it from the rest. -/
theorem parted_of_covered (outside : (covered (front ++ behind))[front.length]? = some false) :
    Segment.ofLines (front ++ behind) = Segment.ofLines front ++ Segment.ofLines behind := by
  obtain ⟨first, text, later, parts, size⟩ := Segment.line_of_covered outside
  obtain ⟨start, rest, same, here, there⟩ := Segment.of_ofLines_append parts
  have length : front.length = start.length := by
    rw [← size, ← here, Segment.length_covered (Segment.divides_ofLines start)]
  obtain ⟨rfl, rfl⟩ := List.append_inj same length
  rw [parts, here, there]

theorem shown_of_parted
    (parted : Segment.ofLines (front ++ behind) = Segment.ofLines front ++ Segment.ofLines behind) :
    shown (front ++ behind) = shown front ++ shown behind := by
  rw [shown, parted, List.flatMap_append]
  rfl

/-- No block begins among lines: what one of them opens, no line behind it closes. -/
structure Inert (lines behind : List Text) : Prop where
  within : lines.Pairwise Apart
  beyond : ∀ line ∈ lines, ∀ later ∈ behind, Apart line later

theorem inert_cons : Inert (text :: lines) behind ↔
    (∀ later ∈ lines ++ behind, Apart text later) ∧ Inert lines behind := by
  constructor
  · rintro ⟨within, beyond⟩
    obtain ⟨here, there⟩ := List.pairwise_cons.mp within
    obtain ⟨first, others⟩ := List.forall_mem_cons.mp beyond
    exact ⟨List.forall_mem_append.mpr ⟨here, first⟩, there, others⟩
  · rintro ⟨first, others⟩
    obtain ⟨here, there⟩ := List.forall_mem_append.mp first
    exact ⟨List.pairwise_cons.mpr ⟨here, others.within⟩,
      List.forall_mem_cons.mpr ⟨there, others.beyond⟩⟩

theorem inert_nil : Inert [] behind := ⟨.nil, List.forall_mem_nil _⟩

theorem inert_append {first second : List Text} :
    Inert (first ++ second) behind ↔ Inert first (second ++ behind) ∧ Inert second behind := by
  induction first with
  | nil => exact ⟨fun all => ⟨inert_nil, all⟩, And.right⟩
  | cons text rest ih =>
    rw [List.cons_append, inert_cons, inert_cons, ih, List.append_assoc, and_assoc]

theorem inert_singleton (plain : Fence.opening? text = none) : Inert [text] behind :=
  inert_cons.mpr ⟨fun _ _ => Segment.apart_of_plain plain, inert_nil⟩

/-- Lines are kept exactly where no block begins among them. -/
theorem prefix_shown_iff : lines <+: shown (lines ++ behind) ↔ Inert lines behind := by
  induction lines with
  | nil => exact ⟨fun _ => inert_nil, fun _ => List.nil_prefix⟩
  | cons text rest ih =>
    rw [inert_cons, ← ih, List.cons_append, shown]
    rcases Segment.ofLines_cases text (rest ++ behind) with ⟨unclosed, made⟩ |
      ⟨fence, body, closing, after, cut, opens, closes, inside, made⟩
    · rw [made]
      change text :: rest <+: text :: shown (rest ++ behind) ↔ _
      rw [List.cons_prefix_cons]
      exact ⟨fun kept => ⟨unclosed, kept.2⟩, fun inert => ⟨rfl, inert.2⟩⟩
    · rw [made, List.flatMap_cons]
      constructor
      · intro kept
        -- The fence line of a chart stands in place of the opening line.
        obtain ⟨same, _⟩ := List.cons_prefix_cons.mp kept
        rw [same, (Fence.legal_of_opening? opens).opening?_chart] at opens
        contradiction
      · rintro ⟨unclosed, _⟩
        have goesOn := unclosed closing (by simp [cut]) fence opens
        rw [closes] at goesOn
        contradiction

/-- Whatever is kept, nothing but blocks is edited. -/
theorem edited_shown {fault : Option Fault}
    (compiled : ∀ source ∈ (Segment.ofLines lines).filterMap Segment.source?,
      compileWith fault source = .ok (compile source)) :
    Edited (Segment.Compiles (compileWith fault · = .ok ·)) lines (shown lines) := by
  have stands : ∀ segment ∈ Segment.ofLines lines,
      Segment.Stands (compileWith fault · = .ok ·) segment segment.shown := by
    intro segment member
    cases segment with
    | line text => exact .line text
    | block fence body => exact .block (compiled _ (List.mem_filterMap.mpr ⟨_, member, rfl⟩))
  have standing := List.forall₂_map_right_iff.mpr (List.forall₂_same.mpr stands)
  exact Segment.edited_of_stands (Segment.divides_ofLines lines) standing

end Markdown

/-! ### Blocks in another language -/

namespace Fence

/-- The lines of a fenced block: what stands behind the fence of its opening line, the lines inside
and the closing line. -/
def blockLines (fence : Fence) (info : Text) (body : List Text) (closing : Text) : List Text :=
  (fence.indent ++ fence.ticks ++ info) :: (body ++ [closing])

/-- A fenced block in another language: its opening line has words behind the fence, which do not
make it a block of a chart source, and its closing line is the first one with its fence. -/
structure Foreign (fence : Fence) (info : Text) (body : List Text) (closing : Text) : Prop where
  legal : fence.Legal
  whole : ∀ c ∈ info.head?, c ∉ fence.ticks
  named : lineDone info = false
  other : opening? (fence.indent ++ fence.ticks ++ info) = none
  inside : ∀ line ∈ body, fence.isClosing line = false
  closes : fence.isClosing closing = true

theorem foreign_text (inside : ∀ line ∈ body, isClosing ⟨[], "~~~~".toList⟩ line = false) :
    Foreign ⟨[], "~~~~".toList⟩ "text".toList body "~~~~".toList where
  legal := ⟨List.forall_mem_nil _, '~', 1, rfl, rfl⟩
  whole c first := Option.some.inj first ▸ by decide
  named := rfl
  other := by decide
  inside := inside
  closes := by decide

theorem Foreign.inert_iff (foreign : fence.Foreign info body closing) :
    Markdown.Inert (fence.blockLines info body closing) behind ↔
      Markdown.Inert body (closing :: behind) := by
  have last : Markdown.Inert [closing] behind :=
    Markdown.inert_singleton (foreign.legal.opening?_of_isClosing foreign.closes)
  rw [blockLines, Markdown.inert_cons, Markdown.inert_append]
  constructor
  · rintro ⟨_, within, _⟩
    exact within
  · intro within
    exact ⟨fun _ _ => Segment.apart_of_plain foreign.other, within, last⟩

end Fence

namespace Markdown

/-- Converting replaces blocks of chart sources and nothing else. A fenced block in another language
that does not lie in such a block is kept at its place exactly if none of the lines inside of it
opens a block that a later line closes. -/
theorem foreign_kept_iff {fault : Option Fault} {document converted : Text}
    (done : convert (compileWith fault) document = .ok converted)
    (foreign : fence.Foreign info body closing)
    (place : Text.lines document = front ++ (fence.blockLines info body closing ++ behind))
    (outside : (covered (Text.lines document))[front.length]? = some false) :
    ∃ rest, Text.lines converted = shown front ++ rest ∧
      Edited (Segment.Compiles (compileWith fault · = .ok ·))
        (fence.blockLines info body closing ++ behind) rest ∧
      (fence.blockLines info body closing <+: rest ↔ Inert body (closing :: behind)) := by
  rw [place] at outside
  have parted := parted_of_covered outside
  refine ⟨shown (fence.blockLines info body closing ++ behind), ?_, ?_, ?_⟩
  · rw [lines_converted done, place, shown_of_parted parted]
  · refine edited_shown fun source listed => compiled_of_convert done source ?_
    rw [sources, Segment.ofDocument, place, parted, List.filterMap_append]
    exact List.mem_append_right _ listed
  · rw [prefix_shown_iff, foreign.inert_iff]

/-- Behind a block a fenced block in another language, with an opening line that stays open. -/
theorem foreign_kept_behind_block :
    let fence : Fence := ⟨[], "~~~~".toList⟩
    let body := ["  ~~~flowdsl".toList, "B".toList]
    let front := ["~~~flowdsl".toList, "A".toList, "~~~".toList]
    let lines := front ++ (fence.blockLines "text".toList body "~~~~".toList ++ ["~~~".toList])
    let converted := Text.unlines ["~~~mermaid".toList, "flowchart TB".toList,
      "  a[\x22A\x22]".toList, "~~~".toList, "~~~~text".toList, "  ~~~flowdsl".toList, "B".toList,
      "~~~~".toList, "~~~".toList]
    convert (compileWith none) (Text.unlines lines) = .ok converted ∧
    fence.Foreign "text".toList body "~~~~".toList ∧ Text.lines (Text.unlines lines) = lines ∧
    (covered (Text.lines (Text.unlines lines)))[front.length]? = some false ∧
    ∃ rest, Text.lines converted = shown front ++ rest ∧
      Edited (Segment.Compiles (compileWith none · = .ok ·))
        (fence.blockLines "text".toList body "~~~~".toList ++ ["~~~".toList]) rest ∧
      (fence.blockLines "text".toList body "~~~~".toList <+: rest ↔
        Inert body ("~~~~".toList :: ["~~~".toList])) := by
  intro fence body front lines converted
  have segments : Segment.ofDocument (Text.unlines lines) =
      .block ⟨[], "~~~".toList⟩ ["A".toList] ::
        (fence.blockLines "text".toList body "~~~~".toList ++ ["~~~".toList]).map .line := by
    decide +kernel
  have done : convert (compileWith none) (Text.unlines lines) = .ok converted := by
    rw [convert, segments]
    decide +kernel
  have foreign : fence.Foreign "text".toList body "~~~~".toList := Fence.foreign_text (by decide)
  have place : Text.lines (Text.unlines lines) = lines := by decide +kernel
  have outside : (covered (Text.lines (Text.unlines lines)))[front.length]? = some false := by
    change ((Segment.ofDocument (Text.unlines lines)).flatMap Segment.covered)[3]? = _
    rw [segments]
    rfl
  exact ⟨done, foreign, place, outside, foreign_kept_iff done foreign place outside⟩

/-- Inside of a longer fence, lines that look like a block of a chart source are converted as
one. -/
theorem foreign_not_kept :
    let fence : Fence := ⟨[], "~~~~".toList⟩
    let body := ["~~~flowdsl".toList, "A".toList, "~~~".toList]
    let lines := fence.blockLines "text".toList body "~~~~".toList
    let converted := Text.unlines ["~~~~text".toList, "~~~mermaid".toList, "flowchart TB".toList,
      "  a[\x22A\x22]".toList, "~~~".toList, "~~~~".toList]
    fence.Foreign "text".toList body "~~~~".toList ∧
    Text.lines (Text.unlines lines) = lines ∧ (covered lines)[0]? = some false ∧
    convert (compileWith none) (Text.unlines lines) = .ok converted ∧
    ¬ lines <+: Text.lines converted := by
  intro fence body lines converted
  have segments : Segment.ofDocument (Text.unlines lines) = [.line "~~~~text".toList,
      .block ⟨[], "~~~".toList⟩ ["A".toList], .line "~~~~".toList] := by
    decide +kernel
  have foreign : fence.Foreign "text".toList body "~~~~".toList := Fence.foreign_text (by decide)
  have place : Text.lines (Text.unlines lines) = lines := by decide +kernel
  have outside : (covered lines)[0]? = some false := by
    change ((Segment.ofLines lines).flatMap Segment.covered)[0]? = _
    rw [← place]
    change ((Segment.ofDocument (Text.unlines lines)).flatMap Segment.covered)[0]? = _
    rw [segments]
    rfl
  have done : convert (compileWith none) (Text.unlines lines) = .ok converted := by
    rw [convert, segments]
    decide +kernel
  exact ⟨foreign, place, outside, done, by decide +kernel⟩

end Markdown

end Flowchart
