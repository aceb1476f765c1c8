import Flowchart.Proofs.Mermaid.Visible

/-!
Every line behind the header tells which part of the content it shows: by the word it starts with
and by what stands behind the word. Labels, titles and colours stand further behind.
-/
namespace Flowchart

namespace Visible

open Mermaid (indent inQuotes)

inductive Part where
  | blank | title | box | frame | edge | boxFill | frameFill
  deriving DecidableEq, Repr

/-- The part of a line, by the word behind its indent and the rest of it. -/
def partOf (word after : Text) : Part :=
  match after with
  | [] => if word.isEmpty then .blank else .frame
  | '%' :: _ => .title
  -- Only behind the source of an edge an arrow follows.
  | ' ' :: '-' :: _ => .edge
  | ' ' :: _ =>
    if word = "style".toList then if after.count ',' = 2 then .boxFill else .frameFill
    else .frame
  | _ => .box

def part (line : Text) : Part :=
  partOf ((line.drop 2).takeWhile Ident.isLetter) ((line.drop 2).dropWhile Ident.isLetter)

theorem part_of_word {word after : Text} (spelled : Ident.Spelled word)
    (outside : after.takeWhile Ident.isLetter = []) :
    part (indent ++ word ++ after) = partOf word after := by
  have rest : after.dropWhile Ident.isLetter = after := by
    have whole := List.takeWhile_append_dropWhile (p := Ident.isLetter) (l := after)
    rwa [outside, List.nil_append] at whole
  have body : (indent ++ word ++ after).drop 2 = word ++ after := by
    rw [List.append_assoc]
    rfl
  rw [part, body, List.takeWhile_append_of_pos spelled, List.dropWhile_append_of_pos spelled,
    outside, rest, List.append_nil]

theorem partOf_blank {word rest : Text} (plain : rest.head? ≠ some '-') :
    partOf word (' ' :: rest) =
      if word = "style".toList then if rest.count ',' = 2 then .boxFill else .frameFill
      else .frame := by
  have commas : (' ' :: rest).count ',' = rest.count ',' := List.count_cons_of_ne (by decide)
  unfold partOf
  split
  · contradiction
  · rename_i shown
    exact absurd (List.cons.inj shown).1 (by decide)
  · rename_i shown
    rw [(List.cons.inj shown).2] at plain
    contradiction
  · rw [commas]
  · rename_i other
    exact absurd rfl (other rest)

/-! ### One lemma for each kind of line -/

theorem part_titleLine (text : Text) : part (indent ++ "%% ".toList ++ text) = .title := by
  rfl

theorem part_member (id : Ident) : part (indent ++ indent ++ id) = .frame := by
  rfl

theorem part_frameEnd : part frameEnd = .frame := by
  decide

/-- An opening bracket ends an identifier, and is neither a comment nor a blank. -/
theorem opening_head {pair : Text × Text} (known : pair ∈ Shape.brackets.values) :
    ∃ c rest, pair.1 = c :: rest ∧ Ident.isLetter c = false ∧ c ≠ '%' ∧ c ≠ ' ' := by
  have table : ∀ pair ∈ Shape.brackets.values,
      (pair.1.head?.any fun c => !Ident.isLetter c && c != '%' && c != ' ') = true := by decide
  obtain ⟨c, first, outside⟩ := (Option.any_eq_true _ _).mp (table pair known)
  obtain ⟨rest, shown⟩ := List.head?_eq_some_iff.mp first
  refine ⟨c, rest, shown, ?_⟩
  simpa [and_assoc] using outside

theorem Box.Safe.part_line {box : Box} (safe : box.Safe) : part box.line = .box := by
  obtain ⟨c, rest, opening, outside, comment, blank⟩ := opening_head safe.brackets
  have line : box.line =
      indent ++ box.id ++ (c :: rest ++ inQuotes box.label ++ box.brackets.2) := by
    rw [Box.line, opening]
    simp only [List.append_assoc]
  rw [line, part_of_word safe.id (by simp [outside])]
  simp [partOf, comment, blank]

theorem head_of_spelled {id rest : Text} (spelled : Ident.Spelled id)
    (plain : rest.head? ≠ some '-') : (id ++ rest).head? ≠ some '-' := by
  cases id with
  | nil => exact plain
  | cons c letters =>
    intro same
    have dash : c = '-' := Option.some.inj same
    have letter := spelled c List.mem_cons_self
    rw [dash] at letter
    contradiction

theorem Frame.Safe.part_body {frame : Frame} (safe : frame.Safe) :
    ∀ line ∈ frame.body, part line = .frame := by
  intro line member
  rcases List.mem_cons.mp member with rfl | inside
  · have first : (frame.id ++ (['['] ++ inQuotes frame.label ++ [']'])).head? ≠ some '-' := by
      apply head_of_spelled safe.id
      simp
    have line : indent ++ "subgraph ".toList ++ frame.id ++ ['['] ++ inQuotes frame.label ++ [']'] =
        indent ++ "subgraph".toList ++
          (' ' :: (frame.id ++ (['['] ++ inQuotes frame.label ++ [']']))) := by
      simp only [List.append_assoc]
      rfl
    rw [line, part_of_word (by decide) rfl, partOf_blank first, if_neg (by decide)]
  · obtain ⟨id, _, rfl⟩ := List.mem_map.mp inside
    exact part_member id

/-- What stands behind the source of an edge. -/
def behindSource (edge : Edge) : Text :=
  match edge.label with
  | some label => " -->|".toList ++ '\x22' :: (label ++ '\x22' :: ("| ".toList ++ edge.target))
  | none => " --> ".toList ++ edge.target

theorem edgeLine_eq {edge : Edge} (sound : edge.Sound) :
    Mermaid.edgeLine edge = indent ++ edge.source ++ behindSource edge := by
  unfold Mermaid.edgeLine behindSource
  cases shown : edge.label with
  | none => simp [Mermaid.filled]
  | some label =>
    have kept : Mermaid.filled (some label) = some label := by
      simpa [Mermaid.filled] using (sound.label label shown).1
    rw [kept]
    simp [inQuotes]

theorem behindSource_outside (edge : Edge) :
    (behindSource edge).takeWhile Ident.isLetter = [] := by
  unfold behindSource
  split
  · rfl
  · rfl

theorem partOf_behindSource (word : Text) (edge : Edge) :
    partOf word (behindSource edge) = .edge := by
  unfold behindSource
  split
  · rfl
  · rfl

theorem part_edgeLine {edge : Edge} (sound : edge.Sound) :
    part (Mermaid.edgeLine edge) = .edge := by
  rw [edgeLine_eq sound, part_of_word sound.source_spelled (behindSource_outside edge),
    partOf_behindSource]

/-- A style line is told by the commas between its colours. -/
theorem part_styleLine {id colors : Text} (spelled : Ident.Spelled id) :
    part (indent ++ "style ".toList ++ id ++ (" fill:".toList ++ colors)) =
      if colors.count ',' = 2 then .boxFill else .frameFill := by
  have first : (id ++ (" fill:".toList ++ colors)).head? ≠ some '-' := by
    apply head_of_spelled spelled
    intro same
    exact absurd (Option.some.inj same) (by decide)
  have line : indent ++ "style ".toList ++ id ++ (" fill:".toList ++ colors) =
      indent ++ "style".toList ++ (' ' :: (id ++ (" fill:".toList ++ colors))) := by
    simp only [List.append_assoc]
    rfl
  have name : id.count ',' = 0 := List.count_eq_zero.mpr (spelled.not_mem (by decide))
  have commas : (id ++ (" fill:".toList ++ colors)).count ',' = colors.count ',' := by
    rw [List.count_append, List.count_append, name]
    simp
  rw [line, part_of_word (by decide) rfl, partOf_blank first, if_pos rfl, commas]

theorem textOn_plain (color : Text) :
    ',' ∉ Color.textOn color ∧ '\n' ∉ Color.textOn color := by
  unfold Color.textOn
  split
  · decide
  · decide

theorem Fill.boxLine_eq (fill : Fill) : fill.boxLine = indent ++ "style ".toList ++ fill.id ++
    (" fill:".toList ++ (fill.color ++ (",stroke:".toList ++ (fill.color ++
      (",color:".toList ++ Color.textOn fill.color))))) := by
  rw [Fill.boxLine]
  simp only [List.append_assoc]

theorem Fill.frameLine_eq (fill : Fill) : fill.frameLine = indent ++ "style ".toList ++ fill.id ++
    (" fill:".toList ++ (fill.color ++ ("20,stroke:".toList ++ fill.color))) := by
  rw [Fill.frameLine]
  simp only [List.append_assoc]

theorem Fill.Safe.part_boxLine {fill : Fill} (safe : fill.Safe) :
    part fill.boxLine = .boxFill := by
  have plain := List.count_eq_zero.mpr safe.comma
  have text := List.count_eq_zero.mpr (textOn_plain fill.color).1
  have commas : (fill.color ++ (",stroke:".toList ++ (fill.color ++
      (",color:".toList ++ Color.textOn fill.color)))).count ',' = 2 := by
    simp [plain, text]
  rw [fill.boxLine_eq, part_styleLine safe.id, if_pos commas]

theorem Fill.Safe.part_frameLine {fill : Fill} (safe : fill.Safe) :
    part fill.frameLine = .frameFill := by
  have plain := List.count_eq_zero.mpr safe.comma
  have commas : (fill.color ++ ("20,stroke:".toList ++ fill.color)).count ',' = 1 := by
    simp [plain]
  rw [fill.frameLine_eq, part_styleLine safe.id, if_neg (by omega)]

/-! ### No line feed inside a line -/

theorem Box.Safe.single_line {box : Box} (safe : box.Safe) : '\n' ∉ box.line := by
  have table : ∀ pair ∈ Shape.brackets.values, '\n' ∉ pair.1 ∧ '\n' ∉ pair.2 := by decide
  obtain ⟨opening, closing⟩ := table box.brackets safe.brackets
  simp [Box.line, indent, inQuotes, safe.id.not_mem (c := '\n') rfl, opening, closing, safe.label]

theorem Frame.Safe.single_line {frame : Frame} (safe : frame.Safe) :
    ∀ line ∈ frame.body, '\n' ∉ line := by
  intro line member
  rcases List.mem_cons.mp member with rfl | inside
  · simp [indent, inQuotes, safe.id.not_mem (c := '\n') rfl, safe.label]
  · obtain ⟨id, known, rfl⟩ := List.mem_map.mp inside
    simp [indent, (safe.members id known).not_mem (c := '\n') rfl]

theorem edgeLine_single_line {edge : Edge} (sound : edge.Sound) :
    '\n' ∉ Mermaid.edgeLine edge := by
  have source := sound.source_spelled.not_mem (c := '\n') rfl
  have target := sound.target_spelled.not_mem (c := '\n') rfl
  rw [edgeLine_eq sound, behindSource]
  split
  · rename_i label shown
    simp [indent, source, target, (sound.label label shown).2.2]
  · simp [indent, source, target]

theorem Fill.Safe.single_line {fill : Fill} (safe : fill.Safe) :
    '\n' ∉ fill.boxLine ∧ '\n' ∉ fill.frameLine := by
  have id := safe.id.not_mem (c := '\n') rfl
  have text := (textOn_plain fill.color).2
  constructor
  · simp [Fill.boxLine, indent, id, text, safe.lineFeed]
  · simp [Fill.frameLine, indent, id, safe.lineFeed]

/-! ### The lines of a part -/

def linesOf (visible : Visible) : Part → List Text
  | .blank => []
  | .title => Mermaid.titleLines visible.title
  | .box => visible.boxes.map Box.line
  | .frame => visible.frames.flatMap fun frame => frame.body ++ [frameEnd]
  | .edge => visible.edges.map Mermaid.edgeLine
  | .boxFill => visible.boxFills.map Fill.boxLine
  | .frameFill => visible.frameFills.map Fill.frameLine

/-- The lines of a part tell the part, and are lines. -/
theorem Safe.of_mem_linesOf {visible : Visible} (safe : visible.Safe) (kind : Part) :
    ∀ line ∈ visible.linesOf kind, part line = kind ∧ '\n' ∉ line := by
  intro line member
  cases kind with
  | blank => exact absurd member List.not_mem_nil
  | title =>
    obtain ⟨text, shown, rfl⟩ := Option.map_eq_some_iff.mp (Option.mem_toList.mp member)
    have single := (safe.title text (Mermaid.filled_eq_some shown).1).2
    exact ⟨part_titleLine text, by simp [indent, single]⟩
  | box =>
    obtain ⟨box, known, rfl⟩ := List.mem_map.mp member
    have legal := safe.boxes box known
    exact ⟨legal.part_line, legal.single_line⟩
  | frame =>
    obtain ⟨frame, known, inside⟩ := List.mem_flatMap.mp member
    have legal := safe.frames frame known
    rcases List.mem_append.mp inside with body | last
    · exact ⟨legal.part_body line body, legal.single_line line body⟩
    · rw [List.mem_singleton.mp last]
      exact ⟨part_frameEnd, by decide⟩
  | edge =>
    obtain ⟨edge, known, rfl⟩ := List.mem_map.mp member
    have legal := safe.edges edge known
    exact ⟨part_edgeLine legal, edgeLine_single_line legal⟩
  | boxFill =>
    obtain ⟨fill, known, rfl⟩ := List.mem_map.mp member
    have legal := safe.boxFills fill known
    exact ⟨legal.part_boxLine, legal.single_line.1⟩
  | frameFill =>
    obtain ⟨fill, known, rfl⟩ := List.mem_map.mp member
    have legal := safe.frameFills fill known
    exact ⟨legal.part_frameLine, legal.single_line.2⟩

theorem Safe.filter_linesOf {visible : Visible} (safe : visible.Safe) (kind wanted : Part) :
    (visible.linesOf kind).filter (part · = wanted) =
      if kind = wanted then visible.linesOf kind else [] := by
  split
  · rename_i same
    apply List.filter_eq_self.mpr
    intro line member
    simpa [(safe.of_mem_linesOf kind line member).1] using same
  · rename_i other
    apply List.filter_eq_nil_iff.mpr
    intro line member
    simpa [(safe.of_mem_linesOf kind line member).1] using other

theorem filter_spaced {wanted : Part} (shown : wanted ≠ .blank) (lines : List Text) :
    (Mermaid.spaced lines).filter (part · = wanted) = lines.filter (part · = wanted) := by
  cases lines with
  | nil => rfl
  | cons line rest =>
    apply List.filter_cons_of_neg
    simpa using fun same : part [] = wanted => shown same.symm

theorem lines_eq_parts (visible : Visible) : visible.lines =
    ("flowchart ".toList ++ visible.direction) ::
      (visible.linesOf .title ++ visible.linesOf .box ++
        (Mermaid.spaced (visible.linesOf .frame) ++ Mermaid.spaced (visible.linesOf .edge) ++
          Mermaid.spaced (visible.linesOf .boxFill ++ visible.linesOf .frameFill))) := by
  rfl

/-- A part of the content is what its own lines say. -/
theorem Safe.filter_part {visible : Visible} (safe : visible.Safe) {wanted : Part}
    (shown : wanted ≠ .blank) :
    visible.lines.tail.filter (part · = wanted) = visible.linesOf wanted := by
  rw [lines_eq_parts, List.tail_cons]
  simp only [List.filter_append, filter_spaced shown, safe.filter_linesOf]
  cases wanted with
  | blank => exact absurd rfl shown
  | title | box | frame | edge | boxFill | frameFill => simp

theorem spaced_single_line {lines : List Text} (plain : ∀ line ∈ lines, '\n' ∉ line) :
    ∀ line ∈ Mermaid.spaced lines, '\n' ∉ line := by
  cases lines with
  | nil => exact plain
  | cons first rest =>
    intro line member
    rcases List.mem_cons.mp member with rfl | inside
    · exact List.not_mem_nil
    · exact plain line inside

theorem Safe.single_line {visible : Visible} (safe : visible.Safe) :
    ∀ line ∈ visible.lines, '\n' ∉ line := by
  intro line member
  rw [lines_eq_parts] at member
  simp only [List.mem_cons, List.mem_append] at member
  rcases member with rfl | (title | box) | (frame | edge) | styles
  · simp [safe.direction]
  · exact (safe.of_mem_linesOf .title line title).2
  · exact (safe.of_mem_linesOf .box line box).2
  · apply spaced_single_line _ line frame
    intro line inside
    exact (safe.of_mem_linesOf .frame line inside).2
  · apply spaced_single_line _ line edge
    intro line inside
    exact (safe.of_mem_linesOf .edge line inside).2
  · apply spaced_single_line _ line styles
    intro line inside
    rcases List.mem_append.mp inside with box | frame
    · exact (safe.of_mem_linesOf .boxFill line box).2
    · exact (safe.of_mem_linesOf .frameFill line frame).2

end Visible

end Flowchart
