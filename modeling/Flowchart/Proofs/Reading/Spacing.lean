import Flowchart.Proofs.Reading.Sections

/-!
Lines that say nothing. Empty lines and comments can stand anywhere, and blanks at both ends of
every line, without a change in what is read; only the numbers of the other lines move.
-/
namespace Flowchart

namespace Line

/-- An empty line, or a comment. -/
def isSilent (line : Text) : Bool := line.isEmpty || "//".toList.isPrefixOf line

/-- The lines of a source that say something, with their numbers. -/
def spoken (source : Text) : List (Text × Nat) :=
  ((ofSource source).zipIdx 1).filter (!isSilent ·.1)

def spokenNumbers (source : Text) : List Nat := (spoken source).map (·.2)

theorem spoken_fst (source : Text) :
    (spoken source).map (·.1) = (ofSource source).filter (!isSilent ·) := by
  calc
    (spoken source).map (·.1) =
        (((ofSource source).zipIdx 1).map (·.1)).filter (!isSilent ·) := by
      rw [List.filter_map]
      rfl
    _ = (ofSource source).filter (!isSilent ·) := by rw [List.zipIdx_map_fst]

theorem spokenNumbers_sorted (source : Text) : (spokenNumbers source).Pairwise (· < ·) := by
  have numbers : (((ofSource source).zipIdx 1).map (·.2)).Pairwise (· < ·) := by
    rw [List.zipIdx_map_snd]
    exact List.pairwise_lt_range'
  exact numbers.sublist (List.filter_sublist.map _)

theorem ofLine_silent {line : Text} (silent : isSilent line = true) :
    Statement.ofLine line = .nothing := by
  rw [isSilent, Bool.or_eq_true] at silent
  rcases silent with empty | comment
  · simp [Statement.ofLine, kind, empty]
  · by_cases empty : line.isEmpty = true
    · simp [Statement.ofLine, kind, empty]
    · simp only [Statement.ofLine, kind, empty, comment, if_true, if_false, Bool.false_eq_true]

end Line

/-- Raw lines that differ in the blanks at their ends, and in silent lines put in and left out. -/
inductive Respaced : List Text → List Text → Prop
  | nil : Respaced [] []
  | line {first second : Text} {lines others : List Text}
    (same : Text.trim first = Text.trim second) (rest : Respaced lines others) :
    Respaced (first :: lines) (second :: others)
  | insert {added : Text} {lines others : List Text}
    (silent : Line.isSilent (Text.trim added) = true) (rest : Respaced lines others) :
    Respaced lines (added :: others)
  | delete {gone : Text} {lines others : List Text}
    (silent : Line.isSilent (Text.trim gone) = true) (rest : Respaced lines others) :
    Respaced (gone :: lines) others

theorem Respaced.spoken {lines others : List Text} (respaced : Respaced lines others) :
    (lines.map Text.trim).filter (!Line.isSilent ·) =
      (others.map Text.trim).filter (!Line.isSilent ·) := by
  induction respaced with
  | nil => rfl
  | line same rest ih =>
    rw [List.map_cons, List.map_cons, List.filter_cons, List.filter_cons, same, ih]
  | insert silent rest ih => rw [ih, List.map_cons, List.filter_cons_of_neg (by simp [silent])]
  | delete silent rest ih => rw [← ih, List.map_cons, List.filter_cons_of_neg (by simp [silent])]

namespace Reading

/-- What is read is read off the lines that say something. -/
theorem ofSource_spoken (source : Text) :
    ofSource source = ofLines ((Line.spoken source).map (·.1)) := by
  have skipped : ∀ reading : Reading, ∀ line, (!Line.isSilent line) = false →
      reading.apply (Statement.ofLine line) = reading := by
    intro reading line silent
    rw [Line.ofLine_silent (by simpa using silent)]
    rfl
  rw [ofSource_eq, Line.spoken_fst]
  exact (view_filter id (fun reading line => reading.apply (Statement.ofLine line))
    (fun _ _ => rfl) skipped (Line.ofSource source)).symm

end Reading

end Flowchart
