import Flowchart.Proofs.Cut
import Flowchart.Proofs.Mermaid.Parts

/-!
The markup of a source can be read in one way only. A line gives back what it shows, since each text
ends where no text of its kind goes on; a part is told apart from the others by its lines.
-/
namespace Flowchart

namespace Visible

open Mermaid (indent inQuotes)

/-! ### One line -/

theorem brackets_no_quote {pair : Text × Text} (known : pair ∈ Shape.brackets.values) :
    '\x22' ∉ pair.1 ∧ '\x22' ∉ pair.2 := by
  have table : ∀ pair ∈ Shape.brackets.values, '\x22' ∉ pair.1 ∧ '\x22' ∉ pair.2 := by decide
  exact table pair known

theorem Box.line_inj {first second : Box} (safe : first.Safe) (also : second.Safe)
    (same : first.line = second.line) : first = second := by
  have outside {box : Box} (safe : box.Safe) :
      (box.brackets.1 ++ inQuotes box.label ++ box.brackets.2).takeWhile Ident.isLetter = [] := by
    obtain ⟨c, rest, opening, outside, _⟩ := opening_head safe.brackets
    simp [opening, outside]
  have line (box : Box) : box.line =
      indent ++ (box.id ++ (box.brackets.1 ++ inQuotes box.label ++ box.brackets.2)) := by
    rw [Box.line]
    simp only [List.append_assoc]
  have quoted (box : Box) : box.brackets.1 ++ inQuotes box.label ++ box.brackets.2 =
      box.brackets.1 ++ '\x22' :: (box.label ++ '\x22' :: box.brackets.2) := by
    simp [inQuotes]
  rw [line, line] at same
  obtain ⟨id, shape⟩ := Cut.append_inj_of_class safe.id also.id (outside safe) (outside also)
    (List.append_cancel_left same)
  rw [quoted, quoted] at shape
  obtain ⟨noQuote, noQuoteBehind⟩ := brackets_no_quote safe.brackets
  obtain ⟨noQuote', noQuoteBehind'⟩ := brackets_no_quote also.brackets
  obtain ⟨opening, text⟩ := Cut.append_inj_of_mark noQuote noQuote' shape
  obtain ⟨label, closing⟩ := Cut.append_inj_of_last_mark noQuoteBehind noQuoteBehind' text
  exact Box.ext id (Prod.ext opening closing) label

theorem Frame.body_inj {first second : Frame} (safe : first.Safe) (also : second.Safe)
    (same : first.body = second.body) : first = second := by
  have head (frame : Frame) : indent ++ "subgraph ".toList ++ frame.id ++ ['['] ++
      inQuotes frame.label ++ [']'] = indent ++ "subgraph ".toList ++
        (frame.id ++ ('[' :: '\x22' :: (frame.label ++ ['\x22', ']']))) := by
    simp [inQuotes]
  obtain ⟨opening, inside⟩ := List.cons.inj same
  rw [head, head] at opening
  obtain ⟨id, text⟩ := Cut.append_inj_of_class safe.id also.id rfl rfl
    (List.append_cancel_left opening)
  have label : first.label = second.label :=
    List.append_cancel_right (List.cons.inj (List.cons.inj text).2).2
  have members : first.members = second.members := by
    apply (List.map_inj_right _).mp inside
    intro one other line
    exact List.append_cancel_left line
  exact Frame.ext id label members

theorem frameEnd_not_mem_body (frame : Frame) : frameEnd ∉ frame.body := by
  intro member
  rcases List.mem_cons.mp member with opening | inside
  · have third := congrArg (fun text : Text => text[2]?) opening
    exact absurd (show some 'e' = some 's' from third) (by decide)
  · obtain ⟨id, _, same⟩ := List.mem_map.mp inside
    have third := congrArg (fun text : Text => text[2]?) same
    exact absurd (show some ' ' = some 'e' from third) (by decide)

theorem labelled_ne_plain (labelled target : Text) :
    " -->|".toList ++ labelled ≠ " --> ".toList ++ target := by
  intro same
  have fifth := congrArg (fun text : Text => text[4]?) same
  exact absurd (show some '|' = some ' ' from fifth) (by decide)

theorem target_no_quote {edge : Edge} (sound : edge.Sound) :
    '\x22' ∉ "| ".toList ++ edge.target := by
  intro member
  rcases List.mem_append.mp member with bar | name
  · exact absurd bar (by decide)
  · exact sound.target_spelled.not_mem rfl name

/-- The label goes up to the last quotation mark, since the target has none. -/
theorem behindSource_inj {first second : Edge} (sound : first.Sound) (also : second.Sound)
    (same : behindSource first = behindSource second) :
    first.label = second.label ∧ first.target = second.target := by
  unfold behindSource at same
  cases label : first.label with
  | none =>
    cases other : second.label with
    | none =>
      rw [label, other] at same
      exact ⟨rfl, List.append_cancel_left same⟩
    | some text =>
      rw [label, other] at same
      exact absurd same.symm (labelled_ne_plain _ _)
  | some text =>
    cases other : second.label with
    | none =>
      rw [label, other] at same
      exact absurd same (labelled_ne_plain _ _)
    | some otherText =>
      rw [label, other] at same
      have quoted := (List.cons.inj (List.append_cancel_left same)).2
      obtain ⟨texts, targets⟩ :=
        Cut.append_inj_of_last_mark (target_no_quote sound) (target_no_quote also) quoted
      exact ⟨congrArg some texts, List.append_cancel_left targets⟩

theorem edgeLine_inj {first second : Edge} (sound : first.Sound) (also : second.Sound)
    (same : Mermaid.edgeLine first = Mermaid.edgeLine second) : first = second := by
  rw [edgeLine_eq sound, edgeLine_eq also, List.append_assoc, List.append_assoc] at same
  obtain ⟨source, behind⟩ := Cut.append_inj_of_class sound.source_spelled also.source_spelled
    (behindSource_outside first) (behindSource_outside second) (List.append_cancel_left same)
  obtain ⟨label, target⟩ := behindSource_inj sound also behind
  cases first
  cases second
  rw [Edge.mk.injEq]
  exact ⟨source, target, label⟩

theorem styleLine_inj {first second colors others : Text} (spelled : Ident.Spelled first)
    (also : Ident.Spelled second)
    (same : indent ++ "style ".toList ++ first ++ (" fill:".toList ++ colors) =
      indent ++ "style ".toList ++ second ++ (" fill:".toList ++ others)) :
    first = second ∧ colors = others := by
  rw [List.append_assoc _ first, List.append_assoc _ second] at same
  obtain ⟨id, behind⟩ := Cut.append_inj_of_class spelled also rfl rfl
    (List.append_cancel_left same)
  exact ⟨id, List.append_cancel_left behind⟩

theorem Fill.boxLine_inj {first second : Fill} (safe : first.Safe) (also : second.Safe)
    (same : first.boxLine = second.boxLine) : first = second := by
  rw [boxLine_eq, boxLine_eq] at same
  obtain ⟨id, colors⟩ := styleLine_inj safe.id also.id same
  obtain ⟨color, _⟩ := Cut.append_inj_of_mark safe.comma also.comma colors
  exact Fill.ext id color

theorem Fill.frameLine_inj {first second : Fill} (safe : first.Safe) (also : second.Safe)
    (same : first.frameLine = second.frameLine) : first = second := by
  have faded {fill : Fill} (safe : fill.Safe) : ',' ∉ fill.color ++ "20".toList := by
    intro member
    rcases List.mem_append.mp member with inside | digits
    · exact safe.comma inside
    · exact absurd digits (by decide)
  have cut (fill : Fill) : fill.color ++ ("20,stroke:".toList ++ fill.color) =
      (fill.color ++ "20".toList) ++ ',' :: ("stroke:".toList ++ fill.color) := by
    rw [List.append_assoc]
    rfl
  rw [frameLine_eq, frameLine_eq] at same
  obtain ⟨id, colors⟩ := styleLine_inj safe.id also.id same
  rw [cut, cut] at colors
  obtain ⟨color, _⟩ := Cut.append_inj_of_mark (faded safe) (faded also) colors
  exact Fill.ext id (List.append_cancel_right color)

/-! ### One part -/

namespace Safe

variable {first second : Visible}

theorem filled_title (safe : first.Safe) : Mermaid.filled first.title = first.title := by
  cases shown : first.title with
  | none => rfl
  | some text => simpa [Mermaid.filled] using (safe.title text shown).1

theorem title_inj (safe : first.Safe) (also : second.Safe)
    (same : first.linesOf .title = second.linesOf .title) : first.title = second.title := by
  have shown := congrArg List.head? same
  simp only [linesOf, Mermaid.titleLines, Option.head?_toList, safe.filled_title,
    also.filled_title] at shown
  apply Option.map_injective _ shown
  intro one other line
  exact List.append_cancel_left line

theorem frames_inj (safe : first.Safe) (also : second.Safe)
    (same : first.linesOf .frame = second.linesOf .frame) : first.frames = second.frames := by
  have bodies : first.frames.map Frame.body = second.frames.map Frame.body := by
    apply Cut.bodies_eq_of_flatMap_eq _ _ same
    · exact fun frame _ => frameEnd_not_mem_body frame
    · exact fun frame _ => frameEnd_not_mem_body frame
  exact Cut.map_inj_of_legal Frame.body_inj safe.frames also.frames bodies

/-- The lines of safe content give it back. -/
theorem lines_inj (safe : first.Safe) (also : second.Safe) (same : first.lines = second.lines) :
    first = second := by
  have parts (wanted : Part) (shown : wanted ≠ .blank) :
      first.linesOf wanted = second.linesOf wanted := by
    rw [← safe.filter_part shown, ← also.filter_part shown, same]
  -- The header is told by its place, each part by its lines.
  have direction := List.append_cancel_left (List.cons.inj same).1
  have title := safe.title_inj also (parts .title (by decide))
  have boxes : first.boxes = second.boxes :=
    Cut.map_inj_of_legal Box.line_inj safe.boxes also.boxes (parts .box (by decide))
  have frames := safe.frames_inj also (parts .frame (by decide))
  have edges : first.edges = second.edges :=
    Cut.map_inj_of_legal edgeLine_inj safe.edges also.edges (parts .edge (by decide))
  have boxFills : first.boxFills = second.boxFills :=
    Cut.map_inj_of_legal Fill.boxLine_inj safe.boxFills also.boxFills (parts .boxFill (by decide))
  have frameFills : first.frameFills = second.frameFills :=
    Cut.map_inj_of_legal Fill.frameLine_inj safe.frameFills also.frameFills
      (parts .frameFill (by decide))
  exact Visible.ext direction title boxes frames edges boxFills frameFills

end Safe

end Visible

/-- The markup of two sources is the same if and only if the same shows of them. -/
theorem compile_eq_iff (first second : Text) : compile first = compile second ↔
    (Diagram.ofSource first).visible = (Diagram.ofSource second).visible := by
  have safe (source : Text) : (Diagram.ofSource source).visible.Safe :=
    (Diagram.sound_ofSource source).visible_safe
  have rendered (source : Text) :
      compile source = Text.unlines (Diagram.ofSource source).visible.lines := by
    rw [compile, Mermaid.render, Diagram.lines_visible]
  have read (source : Text) :
      Text.lines (compile source) = (Diagram.ofSource source).visible.lines := by
    rw [rendered]
    exact Text.lines_unlines (safe source).single_line (List.cons_ne_nil _ _)
  constructor
  · intro same
    apply (safe first).lines_inj (safe second)
    rw [← read, ← read, same]
  · intro same
    rw [rendered, rendered, same]

end Flowchart
