import Flowchart.Proofs.Markdown.Converted

/-!
Where things stand in a document and after converting it. Segments follow each other like their
lines: where the segments are parted, the lines are parted, and each part has its own segments. So
converting goes on behind a block as it does at the start of a document.
-/
namespace Flowchart

variable {fence : Fence} {front rest behind lines body : List Text} {text closing : Text}
  {segments first later : List Segment}

namespace Segment

theorem ofLines_nil : ofLines [] = [] := by rw [ofLines]

theorem close?_of_closed (inside : ∀ line ∈ body, fence.isClosing line = false)
    (closes : fence.isClosing closing = true) (behind : List Text) :
    fence.close? (body ++ closing :: behind) = some (body, behind) := by
  induction body with
  | nil => rw [List.nil_append, Fence.close?, if_pos closes]
  | cons line more ih =>
    obtain ⟨goesOn, within⟩ := List.forall_mem_cons.mp inside
    rw [List.cons_append, Fence.close?, ih within, goesOn]
    rfl

/-- What the first line makes: a segment of its own where nothing that it opens is closed, or else
a block. -/
theorem ofLines_cases (text : Text) (rest : List Text) :
    ((∀ line ∈ rest, Apart text line) ∧ ofLines (text :: rest) = line text :: ofLines rest) ∨
      ∃ fence body closing behind, rest = body ++ closing :: behind ∧
        Fence.opening? text = some fence ∧ fence.isClosing closing = true ∧
        (∀ line ∈ body, fence.isClosing line = false) ∧
        ofLines (text :: rest) = block fence body :: ofLines behind := by
  cases opens : Fence.opening? text with
  | none => exact .inl ⟨fun _ _ => apart_of_plain opens, ofLines_of_plain opens⟩
  | some fence =>
    cases closed : fence.close? rest with
    | none =>
      refine .inl ⟨fun line inside other known => ?_, ofLines_of_unclosed opens closed⟩
      obtain rfl := Option.some.inj (opens.symm.trans known)
      exact close?_eq_none_iff.mp closed line inside
    | some parts =>
      obtain ⟨closing, shown, closes, inside⟩ := Fence.closed_of_close? closed
      exact .inr ⟨fence, parts.1, closing, parts.2, shown, rfl, closes, inside,
        ofLines_of_closed opens closed⟩

/-- A block in front: its opening line, its body and its closing line. -/
theorem of_ofLines_block (cut : ofLines lines = block fence body :: segments) :
    ∃ opening closing rest, lines = opening :: (body ++ closing :: rest) ∧
      Fence.opening? opening = some fence ∧ fence.isClosing closing = true ∧
      (∀ line ∈ body, fence.isClosing line = false) ∧ ofLines rest = segments := by
  cases lines with
  | nil =>
    rw [ofLines_nil] at cut
    contradiction
  | cons text rest =>
    rcases ofLines_cases text rest with ⟨_, made⟩ |
      ⟨other, within, closing, behind, rfl, opens, closes, inside, made⟩
    · rw [made] at cut
      obtain ⟨different, _⟩ := List.cons.inj cut
      contradiction
    · rw [made] at cut
      obtain ⟨same, others⟩ := List.cons.inj cut
      cases same
      exact ⟨text, closing, behind, rfl, opens, closes, inside, others⟩

/-- Where the segments are parted, the lines are, and each part has its own segments. -/
theorem of_ofLines_append (cut : ofLines lines = first ++ later) :
    ∃ front behind, lines = front ++ behind ∧ ofLines front = first ∧ ofLines behind = later := by
  induction first generalizing lines with
  | nil => exact ⟨[], lines, rfl, ofLines_nil, cut⟩
  | cons segment more ih =>
    cases lines with
    | nil =>
      rw [ofLines_nil] at cut
      contradiction
    | cons text rest =>
      rcases ofLines_cases text rest with ⟨unclosed, made⟩ |
        ⟨fence, body, closing, after, rfl, opens, closes, inside, made⟩
      · rw [made] at cut
        obtain ⟨rfl, others⟩ := List.cons.inj cut
        obtain ⟨front, behind, rfl, here, there⟩ := ih others
        refine ⟨text :: front, behind, rfl, ?_, there⟩
        rw [ofLines_of_open, here]
        exact fun line inside => unclosed line (List.mem_append_left behind inside)
      · rw [made] at cut
        obtain ⟨rfl, others⟩ := List.cons.inj cut
        obtain ⟨front, behind, rfl, here, there⟩ := ih others
        refine ⟨text :: (body ++ closing :: front), behind, by simp, ?_, there⟩
        rw [ofLines_of_closed opens (close?_of_closed inside closes front), here]

/-! ### Lines that stand for a segment -/

/-- The lines that stand for a segment after converting. -/
def shown (segment : Segment) : List Text := convert (m := Id) compile segment

theorem shown_of_stands {fault : Option Fault} {segment : Segment} {piece : List Text}
    (stands : Stands (compileWith fault · = .ok ·) segment piece) :
    (∀ source, segment.source? = some source → compileWith fault source = .ok (compile source)) ∧
      segment.shown = piece := by
  cases stands with
  | line =>
    refine ⟨fun source given => ?_, rfl⟩
    contradiction
  | block given =>
    cases fault with
    | some cause => contradiction
    | none =>
      cases given
      exact ⟨fun _ _ => rfl, rfl⟩

end Segment

namespace Markdown

variable {document converted : Text} {fault : Option Fault}

/-- The lines that stand for the lines of a document after converting. -/
def shown (lines : List Text) : List Text := (Segment.ofLines lines).flatMap Segment.shown

/-- Where converting succeeds, so did compiling each source. -/
theorem compiled_of_convert (done : convert (compileWith fault) document = .ok converted) :
    ∀ source ∈ sources document, compileWith fault source = .ok (compile source) := by
  obtain ⟨pieces, standing, _⟩ := lines_of_convert done
  obtain ⟨each, _⟩ := (List.forall₂_and_left _ _).mp
    (standing.imp fun _ _ => Segment.shown_of_stands)
  intro source listed
  obtain ⟨segment, member, given⟩ := List.mem_filterMap.mp listed
  exact each segment member source given

theorem lines_converted (done : convert (compileWith fault) document = .ok converted) :
    Text.lines converted = shown (Text.lines document) := by
  obtain ⟨pieces, standing, lines⟩ := lines_of_convert done
  have same : List.Forall₂ Eq ((Segment.ofDocument document).map Segment.shown) pieces :=
    List.forall₂_map_left_iff.mpr
      (standing.imp fun _ _ stands => (Segment.shown_of_stands stands).2)
  rw [List.forall₂_eq_eq_eq] at same
  rw [lines, ← same, ← List.flatMap_def]
  rfl

end Markdown

end Flowchart
