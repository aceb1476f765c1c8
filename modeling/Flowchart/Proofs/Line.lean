import Flowchart.Line
import Flowchart.Proofs.Chain

/-!
The lines of a source, and what a statement takes over from its line.
-/
namespace Flowchart

namespace Line

/-- The lines of a source, blanks at both ends left out. -/
def ofSource (source : Text) : List Text := (Text.lines source).map Text.trim

/-- A line as the reader of statements takes it. -/
def Clean (line : Text) : Prop := Text.Trimmed line ∧ '\n' ∉ line

theorem clean_of_mem_ofSource {source line : Text} (member : line ∈ ofSource source) :
    Clean line := by
  obtain ⟨raw, known, rfl⟩ := List.mem_map.mp member
  refine ⟨Text.trimmed_trim raw, ?_⟩
  intro feed
  exact Text.not_mem_of_mem_lines known (Text.mem_of_mem_trim feed)

/-- Clean lines are taken as they stand. -/
theorem ofSource_unlines {lines : List Text}
    (clean : ∀ line ∈ lines, Clean line) (nonempty : lines ≠ []) :
    ofSource (Text.unlines lines) = lines := by
  have apart : Text.lines (Text.unlines lines) = lines :=
    Text.lines_unlines (fun line member => (clean line member).2) nonempty
  calc
    ofSource (Text.unlines lines) = lines.map Text.trim := by rw [ofSource, apart]
    _ = lines.map id := List.map_congr_left fun line member => (clean line member).1
    _ = lines := List.map_id lines

theorem titleMark_prefix {line : Text} (title : kind line = .title) : titleMark <+: line := by
  have marked : titleMark.isPrefixOf line = true := by grind [kind]
  exact List.isPrefixOf_iff_prefix.mp marked

theorem eq_closeMark {line : Text} (close : kind line = .groupClose) : line = closeMark := by
  grind [kind]

theorem not_mem_of_not_hasArrow {label : Text} (plain : hasArrow label = false) :
    '<' ∉ label ∧ '>' ∉ label := by
  have absent : ∀ c ∈ label, ¬(c == '>' || c == '<') = true := List.any_eq_false.mp plain
  constructor
  · intro member
    exact absent '<' member (by decide)
  · intro member
    exact absent '>' member (by decide)

theorem hasSpacedArrow_eq_false {line : Text} (left : '<' ∉ line) (right : '>' ∉ line) :
    hasSpacedArrow line = false := by
  have absent {part : Text} {mark : Char} (inside : mark ∈ part) (free : mark ∉ line) :
      Text.occursIn part line = false := by
    apply Bool.eq_false_iff.mpr
    intro found
    exact free ((Text.occursIn_iff.mp found).subset inside)
  rw [hasSpacedArrow, absent (by decide) right, absent (by decide) left]
  rfl

theorem hasSpacedArrow_append (front back : Text) :
    hasSpacedArrow (front ++ " > ".toList ++ back) = true := by
  have found : Text.occursIn " > ".toList (front ++ " > ".toList ++ back) = true :=
    Text.occursIn_iff.mpr (List.infix_append front _ back)
  rw [hasSpacedArrow, found, Bool.true_or]

/-- The text behind the keyword is what makes the line longer than the keyword. -/
theorem title_shown {line : Text} (trimmed : Text.Trimmed line) (title : kind line = .title) :
    Text.trim (line.drop titleMark.length) ≠ [] := by
  obtain ⟨rest, joined⟩ := titleMark_prefix title
  rw [← joined, List.drop_left]
  have nonempty : rest ≠ [] := by
    rintro rfl
    have mark : titleMark ≠ [] := by decide
    rw [List.append_nil] at joined
    have visible := (joined ▸ trimmed).getLast_visible mark
    have space : Text.isBlank (titleMark.getLast (by decide)) = true := by decide
    rw [space] at visible
    contradiction
  exact (joined ▸ trimmed).trim_end_ne_nil nonempty

end Line

namespace Statement

theorem ofSource_eq (source : Text) : ofSource source = (Line.ofSource source).map ofLine := by
  rw [ofSource, Line.ofSource, List.map_map]
  rfl

/-- What every statement satisfies that stands on a trimmed line. -/
def Sound : Statement → Prop
  | title text => text ≠ [] ∧ Text.Trimmed text ∧ '\n' ∉ text
  | chain links => ∀ link ∈ links, link.edge.Sound
  | group declaration => declaration.Sound
  | node declaration => declaration.Sound ∧ Line.hasArrow declaration.label = false
  | nothing | direction _ | close | unreadableGroup _ | unspacedArrow _ => True

theorem ofLine_sound {line : Text} (trimmed : Text.Trimmed line) (single : '\n' ∉ line) :
    (ofLine line).Sound := by
  unfold ofLine
  cases shape : Line.kind line with
  | blank => trivial
  | comment => trivial
  | title =>
    refine ⟨Line.title_shown trimmed shape, Text.trimmed_trim _, ?_⟩
    intro feed
    exact single (List.mem_of_mem_drop (Text.mem_of_mem_trim feed))
  | direction => trivial
  | groupClose => trivial
  | relationship =>
    intro link member
    exact Chain.edge_sound single member
  | groupOpen =>
    cases read : Declaration.group? line with
    | none => trivial
    | some declaration => exact Declaration.read?_sound single read
  | node =>
    cases read : Declaration.node? line with
    | none => trivial
    | some declaration =>
      by_cases arrow : Line.hasArrow declaration.label = true
      · simp only [arrow, if_true]
        trivial
      · simp only [arrow]
        exact ⟨Declaration.read?_sound single read, Bool.eq_false_iff.mpr arrow⟩

theorem sound_of_mem_ofSource {source : Text} {statement : Statement}
    (member : statement ∈ ofSource source) : statement.Sound := by
  rw [ofSource_eq] at member
  obtain ⟨line, known, rfl⟩ := List.mem_map.mp member
  obtain ⟨trimmed, single⟩ := Line.clean_of_mem_ofSource known
  exact ofLine_sound trimmed single

end Statement

end Flowchart
