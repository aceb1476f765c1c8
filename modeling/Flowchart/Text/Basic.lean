/-!
Text as a list of code points. Lines end at the line feed alone, and joining the lines of a text
gives the text back.
-/
namespace Flowchart

abbrev Text := List Char

namespace Text

/-- A carriage return is part of its line. -/
def lines (text : Text) : List Text := text.splitOn '\n'

def unlines (pieces : List Text) : Text := ['\n'].intercalate pieces

/-- The text before the first `mark` and the text after it, if there is one. -/
def cutAt? (mark : Char) : Text → Option (Text × Text)
  | [] => none
  | c :: rest =>
    if c = mark then some ([], rest)
    else (cutAt? mark rest).map fun (before, after) => (c :: before, after)

/-- Every way to cut a text in two at a mark, from left to right. -/
def cuts (mark : Char) : Text → List (Text × Text)
  | [] => []
  | c :: rest =>
    let later := (cuts mark rest).map fun (before, after) => (c :: before, after)
    if c = mark then ([], rest) :: later else later

/-- The pieces between the places where `second` follows `first`. -/
def splitOnPair (first second : Char) : Text → List Text
  | [] => [[]]
  | [c] => [[c]]
  | c :: d :: rest =>
    if c = first ∧ d = second then [] :: splitOnPair first second rest
    else (splitOnPair first second (d :: rest)).modifyHead (c :: ·)

/-- The rest of the text after `start`, if it begins with it. -/
def dropStart? (start text : Text) : Option Text :=
  if start.isPrefixOf text then some (text.drop start.length) else none

/-- Whether `part` stands somewhere in a text. -/
def occursIn (part : Text) : Text → Bool
  | [] => part.isEmpty
  | c :: rest => part.isPrefixOf (c :: rest) || occursIn part rest

/-- The numeral of a number, without leading zeros. -/
def ofNat (n : Nat) : Text := Nat.toDigits 10 n

theorem unlines_lines (text : Text) : unlines (lines text) = text :=
  List.intercalate_splitOn '\n'

theorem append_of_cutAt? {mark : Char} {text before after : Text}
    (cut : cutAt? mark text = some (before, after)) :
    text = before ++ mark :: after ∧ mark ∉ before := by
  induction text generalizing before with
  | nil => simp [cutAt?] at cut
  | cons c rest ih =>
    by_cases found : c = mark
    · simp only [cutAt?, found, if_true, Option.some.injEq, Prod.mk.injEq] at cut
      simp [← cut.1, ← cut.2, found]
    · simp only [cutAt?, found, if_false, Option.map_eq_some_iff, Prod.exists, Prod.mk.injEq]
        at cut
      obtain ⟨front, back, inner, rfl, rfl⟩ := cut
      obtain ⟨same, absent⟩ := ih inner
      exact ⟨by simp [same], by simp [absent, Ne.symm found]⟩

end Text

end Flowchart
