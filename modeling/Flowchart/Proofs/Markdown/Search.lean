import Flowchart.Proofs.Cut
import Flowchart.Proofs.Markdown.Places
import Flowchart.Proofs.Markdown.Spelling

/-!
Two ways to find the blocks of a document. A scan goes from line to line: an opening line that a
later line closes starts a block, which ends at the first such line. A search goes from character to
character and takes the shortest block that begins where it is. Both find the same blocks, and these
are the ones that are compiled.
-/
namespace Flowchart

variable {before behind : Text} {lines body : List Text} {segments : List Segment}

/-! ### From line to line -/

namespace Markdown

open Fence (opening?_iff isClosing_iff isClosing_eq_false_iff)

/-- What a scan from the top makes of lines. -/
inductive Scan : List Text → List Segment → Prop
  | nil : Scan [] []
  | line {line : Text} {rest : List Text} {segments : List Segment}
    (stays : ∀ fence : Fence, fence.Opener line → ∀ later ∈ rest, ¬fence.Closer later)
    (behind : Scan rest segments) : Scan (line :: rest) (.line line :: segments)
  | block {fence : Fence} {opening closing : Text} {body rest : List Text}
    {segments : List Segment} (opens : fence.Opener opening)
    (inside : ∀ line ∈ body, ¬fence.Closer line) (closes : fence.Closer closing)
    (behind : Scan rest segments) :
    Scan (opening :: (body ++ closing :: rest)) (.block fence body :: segments)

theorem scan_ofLines (lines : List Text) : Scan lines (Segment.ofLines lines) := by
  induction size : lines.length using Nat.strong_induction_on generalizing lines with
  | _ n ih =>
    cases lines with
    | nil =>
      rw [Segment.ofLines_nil]
      exact .nil
    | cons line rest =>
      rcases Segment.ofLines_cases line rest with ⟨unclosed, made⟩ |
        ⟨fence, body, closing, after, rfl, opens, closes, inside, made⟩
      · rw [made]
        refine .line ?_ (ih rest.length (by simp [← size]) rest rfl)
        intro fence opens later member
        exact isClosing_eq_false_iff.mp (unclosed later member fence (opening?_iff.mpr opens))
      · rw [made]
        refine .block (opening?_iff.mp opens) ?_ (isClosing_iff.mp closes)
          (ih after.length (by simp [← size]; omega) after rfl)
        exact fun line member => isClosing_eq_false_iff.mp (inside line member)

/-- The scan is the one that runs. -/
theorem scan_iff : Scan lines segments ↔ segments = Segment.ofLines lines := by
  constructor
  · intro scan
    induction scan with
    | nil => exact Segment.ofLines_nil.symm
    | line stays _ ih =>
      rw [Segment.ofLines_of_open, ih]
      intro later member fence opens
      exact isClosing_eq_false_iff.mpr (stays fence (opening?_iff.mp opens) later member)
    | block opens inside closes _ ih =>
      have within := fun line member => isClosing_eq_false_iff.mpr (inside line member)
      rw [Segment.ofLines_of_closed (opening?_iff.mpr opens)
        (Segment.close?_of_closed within (isClosing_iff.mpr closes) _), ih]
  · rintro rfl
    exact scan_ofLines lines

end Markdown

/-! ### Lines as texts -/

namespace Text

/-- A line begins behind this part of a text. -/
def LineStart (text : Text) : Prop := text = [] ∨ text.getLast? = some '\n'

theorem unlines_append_cons (body : List Text) (line : Text) (rest : List Text) :
    unlines (body ++ line :: rest) = body.flatMap (· ++ ['\n']) ++ unlines (line :: rest) := by
  induction body with
  | nil => rfl
  | cons first body ih =>
    obtain ⟨next, others, shown⟩ := List.exists_cons_of_ne_nil
      (List.append_ne_nil_of_right_ne_nil body (List.cons_ne_nil line rest))
    rw [List.cons_append, unlines_cons, shown, continued_cons, ← shown, ih]
    simp

theorem not_lineStart_concat {c : Char} (other : c ≠ '\n') (text : Text) :
    ¬LineStart (text ++ [c]) := by
  rintro (empty | last)
  · simp at empty
  · rw [List.getLast?_concat] at last
    exact other (Option.some.inj last)

theorem lineStart_concat (text : Text) : LineStart (text ++ ['\n']) :=
  .inr List.getLast?_concat

theorem lineStart_flatMap (lines : List Text) : LineStart (lines.flatMap (· ++ ['\n'])) := by
  rcases List.eq_nil_or_concat' lines with rfl | ⟨front, line, rfl⟩
  · exact .inl rfl
  · rw [List.flatMap_append, List.flatMap_singleton, ← List.append_assoc]
    exact lineStart_concat _

theorem LineStart.exists_lines {text : Text} (start : LineStart text) :
    ∃ lines : List Text, text = lines.flatMap (· ++ ['\n']) ∧ ∀ line ∈ lines, '\n' ∉ line := by
  rcases start with rfl | last
  · exact ⟨[], rfl, List.forall_mem_nil _⟩
  · obtain ⟨front, rfl⟩ := List.getLast?_eq_some_iff.mp last
    refine ⟨lines front, ?_, fun line => not_mem_of_mem_lines⟩
    obtain ⟨line, rest, shown⟩ := List.exists_cons_of_ne_nil (List.splitOn_ne_nil '\n' front)
    have whole : unlines (lines front) = front := unlines_lines front
    have ended := unlines_append_cons (lines front) [] []
    rw [lines, shown] at whole ended ⊢
    rw [unlines_append, whole] at ended
    simpa [continued, unlines] using ended

theorem exists_continued {text : Text} (stop : text = [] ∨ text.head? = some '\n') :
    ∃ lines : List Text, text = continued lines ∧ ∀ line ∈ lines, '\n' ∉ line := by
  rcases stop with rfl | first
  · exact ⟨[], rfl, List.forall_mem_nil _⟩
  · obtain ⟨rest, rfl⟩ := List.head?_eq_some_iff.mp first
    refine ⟨lines rest, ?_, fun line => not_mem_of_mem_lines⟩
    obtain ⟨line, others, shown⟩ := List.exists_cons_of_ne_nil (List.splitOn_ne_nil '\n' rest)
    have whole : unlines (lines rest) = rest := unlines_lines rest
    rw [lines, shown] at whole ⊢
    rw [continued_cons, whole]

end Text

/-! ### From character to character -/

/-- A block as it stands in a text. -/
@[ext] structure Find where
  fence : Fence
  opening : Text
  body : Text
  closing : Text

namespace Find

def whole (find : Find) : Text := find.opening ++ '\n' :: (find.body ++ find.closing)

/-- What stands in place of the block, where its source gives this markup. -/
def chart (find : Find) (markup : Text) : Text :=
  Text.unlines (Segment.compiledLines find.fence markup)

/-- The block can stand between these parts of a text: its fence lines are whole lines. -/
structure Fits (find : Find) (before behind : Text) : Prop where
  start : before.LineStart
  opens : find.fence.Opener find.opening
  inside : find.body.LineStart
  closes : find.fence.Closer find.closing
  stop : behind = [] ∨ behind.head? = some '\n'

variable {find other : Find} {after : Text}

theorem Fits.opening_single (fits : find.Fits before behind) : '\n' ∉ find.opening :=
  fits.opens.single_line

theorem Fits.closing_single (fits : find.Fits before behind) : '\n' ∉ find.closing :=
  fits.closes.single_line fits.opens.legal

theorem unlines_of_body (find : Find) (shown : find.body = body.flatMap (· ++ ['\n']))
    (rest : List Text) :
    Text.unlines (find.opening :: (body ++ find.closing :: rest)) =
      find.whole ++ Text.continued rest := by
  have parts := Text.unlines_append_cons (find.opening :: body) find.closing rest
  rw [Text.unlines_cons, List.flatMap_cons, ← shown] at parts
  exact parts.trans (by simp [whole])

/-- Where a block stands in lines, it is made of whole lines. -/
theorem Fits.exists_lines (fits : find.Fits before behind) (single : ∀ line ∈ lines, '\n' ∉ line)
    (nonempty : lines ≠ []) (same : Text.unlines lines = find.whole ++ behind) :
    ∃ body rest, lines = find.opening :: (body ++ find.closing :: rest) ∧
      find.body = body.flatMap (· ++ ['\n']) ∧ behind = Text.continued rest := by
  obtain ⟨body, shown, bodySingle⟩ := fits.inside.exists_lines
  obtain ⟨rest, last, restSingle⟩ := Text.exists_continued fits.stop
  refine ⟨body, rest, ?_, shown, last⟩
  have plain : ∀ line ∈ find.opening :: (body ++ find.closing :: rest), '\n' ∉ line := by
    refine List.forall_mem_cons.mpr ⟨fits.opening_single, List.forall_mem_append.mpr ⟨bodySingle,
      List.forall_mem_cons.mpr ⟨fits.closing_single, restSingle⟩⟩⟩
  rw [← Text.lines_unlines single nonempty, same, last, ← find.unlines_of_body shown rest,
    Text.lines_unlines plain (List.cons_ne_nil _ _)]

theorem Fits.eq_of_length (fits : find.Fits before behind) (also : other.Fits before after)
    (size : find.body.length = other.body.length)
    (same : find.whole ++ behind = other.whole ++ after) : find = other ∧ behind = after := by
  have parts : find.opening ++ '\n' :: (find.body ++ (find.closing ++ behind)) =
      other.opening ++ '\n' :: (other.body ++ (other.closing ++ after)) := by
    simpa [whole] using same
  obtain ⟨openings, behindOpening⟩ :=
    Cut.append_inj_of_mark fits.opening_single also.opening_single parts
  obtain ⟨bodies, ends⟩ := List.append_inj behindOpening size
  have plain {line : Text} (single : '\n' ∉ line) : ∀ c ∈ line, (c != '\n') = true := by
    intro c inside
    exact bne_iff_ne.mpr (ne_of_mem_of_not_mem inside single)
  have stopped {rest : Text} (stop : rest = [] ∨ rest.head? = some '\n') :
      rest.takeWhile (· != '\n') = [] := by
    rcases stop with rfl | first
    · rfl
    · obtain ⟨more, rfl⟩ := List.head?_eq_some_iff.mp first
      rfl
  obtain ⟨closings, behinds⟩ := Cut.append_inj_of_class (plain fits.closing_single)
    (plain also.closing_single) (stopped fits.stop) (stopped also.stop) ends
  have fences : find.fence = other.fence := fits.opens.eq (openings ▸ also.opens)
  exact ⟨Find.ext fences openings bodies closings, behinds⟩

end Find

namespace Markdown

/-- What a search finds in a text behind another part: the shortest block wherever one can stand,
and else a character that is kept. -/
inductive Search : Text → Text → List (Char ⊕ Find) → Prop
  | nil {before : Text} : Search before [] []
  | keep {before rest : Text} {c : Char} {items : List (Char ⊕ Find)}
    (nothing : ∀ (find : Find) behind, c :: rest = find.whole ++ behind → ¬find.Fits before behind)
    (later : Search (before ++ [c]) rest items) : Search before (c :: rest) (.inl c :: items)
  | take {before text behind : Text} {find : Find} {items : List (Char ⊕ Find)}
    (split : text = find.whole ++ behind) (fits : find.Fits before behind)
    (shortest : ∀ (other : Find) after, text = other.whole ++ after → other.Fits before after →
      find.body.length ≤ other.body.length)
    (later : Search (before ++ find.whole) behind items) : Search before text (.inr find :: items)

/-- A text with something in place of each block. -/
def written (shown : Find → Text) (items : List (Char ⊕ Find)) : Text :=
  items.flatMap (Sum.elim (fun c => [c]) shown)

def finds (items : List (Char ⊕ Find)) : List Find := items.filterMap Sum.getRight?

section Search

variable {text rest : Text} {find other : Find} {items others : List (Char ⊕ Find)} {c : Char}

theorem Search.written_whole (search : Search before text items) :
    written Find.whole items = text := by
  induction search with
  | nil => rfl
  | keep _ _ ih => exact congrArg (_ :: ·) ih
  | take split _ _ _ ih =>
    rw [split, ← ih]
    rfl

/-- A search goes one way only. -/
theorem Search.unique (search : Search before text items) (again : Search before text others) :
    items = others := by
  induction search generalizing others with
  | nil =>
    cases again with
    | nil => rfl
    | take split => simp [Find.whole] at split
  | keep nothing _ ih =>
    cases again with
    | keep _ later => rw [ih later]
    | take split fits => exact absurd fits (nothing _ _ split)
  | take split fits shortest _ ih =>
    cases again with
    | nil => simp [Find.whole] at split
    | keep nothing => exact absurd fits (nothing _ _ split)
    | take cut also least later =>
      have size := Nat.le_antisymm (shortest _ _ cut also) (least _ _ split fits)
      obtain ⟨rfl, rfl⟩ := fits.eq_of_length also size (split.symm.trans cut)
      rw [ih later]

/-- A line in which no block begins is kept. -/
theorem Search.keep_line {line : Text} (single : '\n' ∉ line)
    (nothing : ∀ (find : Find) behind, line ++ rest = find.whole ++ behind →
      ¬find.Fits before behind)
    (later : Search (before ++ line) rest items) :
    Search before (line ++ rest) (line.map .inl ++ items) := by
  induction line generalizing before with
  | nil => simpa using later
  | cons c line ih =>
    obtain ⟨other, inside⟩ := not_or.mp (mt List.mem_cons.mpr single)
    refine .keep nothing (ih inside ?_ (by simpa using later))
    -- Behind a character of a line no line begins.
    exact fun find behind _ fits => Text.not_lineStart_concat (Ne.symm other) before fits.start

end Search

/-! ### The search finds what the scan finds -/

end Markdown

namespace Segment

/-- The lines that stand for a segment, where sources give markup. -/
def filled (markup : Text → Text) : Segment → List Text
  | line text => [text]
  | block fence body => compiledLines fence (markup (body.flatMap (· ++ ['\n'])))

end Segment

namespace Markdown

/-- Items that hold the blocks of segments and put in their places what the segments put there. -/
structure Agree (join : List Text → Text) (items : List (Char ⊕ Find)) (segments : List Segment) :
    Prop where
  sources : (finds items).map Find.body = segments.filterMap Segment.source?
  written : ∀ markup : Text → Text, written (fun find => find.chart (markup find.body)) items =
    join (segments.flatMap (Segment.filled markup))

section Agree

variable {items : List (Char ⊕ Find)}

/-- Segments of lines show lines. -/
theorem exists_filled_of_scan {line : Text} {rest : List Text} (scan : Scan (line :: rest) segments)
    (markup : Text → Text) :
    ∃ first more, segments.flatMap (Segment.filled markup) = first :: more := by
  cases scan with
  | line => exact ⟨_, _, rfl⟩
  | block => exact ⟨_, _, rfl⟩

theorem Agree.feed {line : Text} {rest : List Text} (agree : Agree Text.unlines items segments)
    (scan : Scan (line :: rest) segments) : Agree Text.continued (.inl '\n' :: items) segments where
  sources := agree.sources
  written markup := by
    obtain ⟨first, more, shown⟩ := exists_filled_of_scan scan markup
    have behind := agree.written markup
    rw [shown] at behind ⊢
    rw [Text.continued_cons, ← behind]
    rfl

theorem Agree.line (line : Text) (agree : Agree Text.continued items segments) :
    Agree Text.unlines (line.map .inl ++ items) (.line line :: segments) where
  sources := by
    have free : finds (line.map .inl) = [] := by simp [finds]
    have parts : finds (line.map .inl ++ items) = finds items := by
      rw [finds, List.filterMap_append, ← finds, free, List.nil_append, finds]
    rw [parts, agree.sources]
    rfl
  written markup := by
    have plain : Markdown.written (fun find => find.chart (markup find.body)) (line.map .inl) =
        line := by
      simp [Markdown.written, List.flatMap_map]
    rw [Markdown.written, List.flatMap_append, ← Markdown.written, ← Markdown.written, plain,
      agree.written]
    exact (Text.unlines_cons line _).symm

theorem Agree.block (find : Find) (body : List Text)
    (shown : find.body = body.flatMap (· ++ ['\n'])) (agree : Agree Text.continued items segments) :
    Agree Text.unlines (.inr find :: items) (.block find.fence body :: segments) where
  sources := congrArg₂ List.cons shown agree.sources
  written markup := by
    let later := segments.flatMap (Segment.filled markup)
    calc
      Markdown.written (fun find => find.chart (markup find.body)) (.inr find :: items) =
          find.chart (markup find.body) ++ Text.continued later :=
        congrArg (find.chart (markup find.body) ++ ·) (agree.written markup)
      _ = Text.unlines (Segment.compiledLines find.fence (markup find.body) ++ later) :=
        (Text.unlines_append _ _ _).symm
      _ = Text.unlines (Segment.filled markup (.block find.fence body) ++ later) := by
        rw [shown]
        rfl

end Agree

/-- Behind a line the search goes on with the next one. -/
theorem Search.behind_line (scan : Scan lines segments)
    (ih : ∀ {before : Text}, lines ≠ [] → before.LineStart →
      ∃ items, Search before (Text.unlines lines) items ∧ Agree Text.unlines items segments)
    (before : Text) :
    ∃ items, Search before (Text.continued lines) items ∧ Agree Text.continued items segments := by
  cases lines with
  | nil =>
    cases scan
    exact ⟨[], .nil, rfl, fun _ => rfl⟩
  | cons line rest =>
    obtain ⟨items, search, agree⟩ := ih (List.cons_ne_nil line rest) (Text.lineStart_concat before)
    refine ⟨_, ?_, agree.feed scan⟩
    rw [Text.continued_cons]
    refine .keep ?_ search
    intro find behind split fits
    obtain ⟨c, more, starts⟩ := List.exists_cons_of_ne_nil fits.opens.nonempty
    have single := fits.opening_single
    rw [Find.whole, starts] at split
    have same : '\n' = c := (List.cons.inj split).1
    exact single (starts ▸ same ▸ List.mem_cons_self)

/-- Where a scan divides lines into segments, a search of their text finds the blocks of these. -/
theorem Search.of_scan (scan : Scan lines segments) (single : ∀ line ∈ lines, '\n' ∉ line)
    (nonempty : lines ≠ []) (start : before.LineStart) :
    ∃ items, Search before (Text.unlines lines) items ∧ Agree Text.unlines items segments := by
  induction scan generalizing before with
  | nil => exact absurd rfl nonempty
  | @line line rest segments stays scan ih =>
    obtain ⟨here, later⟩ := List.forall_mem_cons.mp single
    obtain ⟨items, search, agree⟩ := Search.behind_line scan (ih later) (before ++ line)
    refine ⟨_, ?_, agree.line line⟩
    rw [Text.unlines_cons]
    refine .keep_line here ?_ search
    intro find behind split fits
    rw [← Text.unlines_cons] at split
    obtain ⟨body, after, shown, _⟩ := fits.exists_lines single nonempty split
    obtain ⟨rfl, rfl⟩ := List.cons.inj shown
    exact stays find.fence fits.opens find.closing (by simp) fits.closes
  | @block fence opening closing body rest segments opens inside closes scan ih =>
    have later : ∀ line ∈ rest, '\n' ∉ line := fun line member => single line (by simp [member])
    let find : Find := ⟨fence, opening, body.flatMap (· ++ ['\n']), closing⟩
    obtain ⟨items, search, agree⟩ := Search.behind_line scan (ih later) (before ++ find.whole)
    have split : Text.unlines (opening :: (body ++ closing :: rest)) =
        find.whole ++ Text.continued rest := find.unlines_of_body rfl rest
    have stop : Text.continued rest = [] ∨ (Text.continued rest).head? = some '\n' := by
      cases rest with
      | nil => exact .inl rfl
      | cons => exact .inr rfl
    refine ⟨_, .take split ⟨start, opens, Text.lineStart_flatMap body, closes, stop⟩ ?_ search,
      agree.block find body rfl⟩
    intro other after cut also
    obtain ⟨longer, last, shown, whole, -⟩ := also.exists_lines single nonempty cut
    obtain ⟨same, parts⟩ := List.cons.inj shown
    have fences : fence = other.fence := opens.eq (same ▸ also.opens)
    rcases Cut.append_cases parts with ⟨mid, rfl, -⟩ | ⟨mid, filled, rfl, tail⟩
    · rw [whole, List.flatMap_append, List.length_append]
      exact Nat.le_add_right _ _
    · -- The closing line of the shorter block would be in the body.
      obtain ⟨first, more, rfl⟩ := List.exists_cons_of_ne_nil filled
      obtain ⟨rfl, -⟩ := List.cons.inj tail
      exact absurd (fences ▸ also.closes) (inside other.closing (by simp))

/-! ### What is compiled -/

section Compiled

variable {ε : Type} {compile : Text → Except ε Text} {markup : Text → Text} {document : Text}

theorem mapM_convert (compiled : ∀ source ∈ segments.filterMap Segment.source?,
    compile source = .ok (markup source)) :
    segments.mapM (Segment.convert compile) = .ok (segments.map (Segment.filled markup)) := by
  induction segments with
  | nil => rfl
  | cons segment segments ih =>
    cases segment with
    | line text =>
      rw [List.mapM_cons, ih compiled]
      rfl
    | block fence body =>
      obtain ⟨here, later⟩ := List.forall_mem_cons.mp compiled
      have converts : Segment.convert compile (.block fence body) =
          .ok (Segment.filled markup (.block fence body)) := by
        rw [Segment.convert, here]
        rfl
      rw [List.mapM_cons, converts, ih later]
      rfl

/-- Where compiling gives markup for each source, the document is converted segment by segment. -/
theorem convert_of_compiled
    (compiled : ∀ source ∈ sources document, compile source = .ok (markup source)) :
    convert compile document =
      .ok (Text.unlines ((Segment.ofDocument document).flatMap (Segment.filled markup))) := by
  rw [convert, mapM_convert compiled, List.flatMap_def]
  rfl

end Compiled

/-- The blocks of a document are those that a scan of its lines finds, and those that a search for
the shortest blocks finds in its text. Where compiling gives markup for each source, converting puts
the compiled blocks in their places and keeps everything else. -/
theorem convert_scanned (document : Text) :
    ∃ (segments : List Segment) (items : List (Char ⊕ Find)),
      (∀ other, Scan (Text.lines document) other ↔ other = segments) ∧
      (∀ other, Search [] document other ↔ other = items) ∧
      sources document = segments.filterMap Segment.source? ∧
      sources document = (finds items).map Find.body ∧
      document = written Find.whole items ∧
      ∀ {ε : Type} (compile : Text → Except ε Text) (markup : Text → Text),
        (∀ source ∈ sources document, compile source = .ok (markup source)) →
        convert compile document =
          .ok (Text.unlines (segments.flatMap (Segment.filled markup))) ∧
        convert compile document =
          .ok (written (fun find => find.chart (markup find.body)) items) := by
  have start : Text.LineStart [] := .inl rfl
  obtain ⟨items, search, agree⟩ := Search.of_scan (scan_ofLines (Text.lines document))
    (fun line => Text.not_mem_of_mem_lines) (List.splitOn_ne_nil '\n' document) start
  rw [Text.unlines_lines] at search
  refine ⟨Segment.ofDocument document, items, fun other => scan_iff, fun other => ⟨?_, ?_⟩, rfl,
    agree.sources.symm, search.written_whole.symm, ?_⟩
  · exact fun again => again.unique search
  · rintro rfl
    exact search
  · intro ε compile markup compiled
    have converted := convert_of_compiled compiled
    exact ⟨converted, agree.written markup ▸ converted⟩

/-- An opening line that stays open, and behind it a block with carriage returns and a tag in
capital letters, with a long s. -/
theorem convert_scanned_behind_unclosed :
    let document := Text.unlines ["~~~~ flowdsl".toList, " ~~~FLOWD\u017fL\r".toList,
      " A".toList, " ~~~\t\r".toList, "~~~".toList]
    (∀ source ∈ sources document, compileWith none source = .ok (compile source)) ∧
    ∃ (segments : List Segment) (items : List (Char ⊕ Find)),
      (∀ other, Scan (Text.lines document) other ↔ other = segments) ∧
      (∀ other, Search [] document other ↔ other = items) ∧
      segments.filterMap Segment.source? = [" A\n".toList] ∧
      (finds items).map Find.body = [" A\n".toList] ∧
      document = written Find.whole items ∧
      convert (compileWith none) document =
        .ok (Text.unlines (segments.flatMap (Segment.filled compile))) ∧
      convert (compileWith none) document =
        .ok (written (fun find => find.chart (compile find.body)) items) := by
  intro document
  have compiled : ∀ source ∈ sources document,
    compileWith none source = .ok (compile source) := fun _ _ => rfl
  have source : sources document = [" A\n".toList] := by decide +kernel
  obtain ⟨segments, items, scan, search, listed, found, whole, converted⟩ :=
    convert_scanned document
  exact ⟨compiled, segments, items, scan, search, listed.symm.trans source,
    found.symm.trans source, whole, converted (compileWith none) compile compiled⟩

end Markdown

end Flowchart
