import Flowchart.Table
import Flowchart.Text.Case

/-!
Colours: names with a fixed value, and the lightness that decides which text is readable on a
colour.
-/
namespace Flowchart.Color

def named : Table Text Text := [
  ("lightblue".toList, "#ADD8E6".toList), ("blue".toList, "#4A90D9".toList),
  ("darkblue".toList, "#2C5282".toList), ("lightgreen".toList, "#90EE90".toList),
  ("green".toList, "#48BB78".toList), ("darkgreen".toList, "#276749".toList),
  ("yellow".toList, "#F6E05E".toList), ("orange".toList, "#ED8936".toList),
  ("red".toList, "#FC8181".toList), ("pink".toList, "#FBB6CE".toList),
  ("purple".toList, "#B794F4".toList), ("teal".toList, "#38B2AC".toList),
  ("cyan".toList, "#76E4F7".toList), ("gray".toList, "#A0AEC0".toList),
  ("white".toList, "#FFFFFF".toList), ("black".toList, "#1A202C".toList)]

/-- A name is looked up without regard to case; any other text stands for itself. -/
def resolve (color : Text) : Text := (named.get? (Text.lower color)).getD color

def hexDigit? (c : Char) : Option Nat :=
  if '0' ≤ c ∧ c ≤ '9' then some (c.toNat - '0'.toNat)
  else if 'a' ≤ c ∧ c ≤ 'f' then some (c.toNat - 'a'.toNat + 10)
  else if 'A' ≤ c ∧ c ≤ 'F' then some (c.toNat - 'A'.toNat + 10)
  else none

/-- The number that the hexadecimal digits at the start of a text write. -/
def leadingHex? (text : Text) : Option Nat :=
  match (text.map hexDigit?).takeWhile Option.isSome with
  | [] => none
  | digits => some (digits.foldl (fun n digit => 16 * n + digit.getD 0) 0)

/-- Red, green and blue, two characters each; one number sign is passed over. -/
def channels? (color : Text) : Option (Nat × Nat × Nat) := do
  let digits := color.erase '#'
  let red ← leadingHex? (digits.take 2)
  let green ← leadingHex? ((digits.drop 2).take 2)
  let blue ← leadingHex? ((digits.drop 4).take 2)
  return (red, green, blue)

/-- The perceived luminance, from 0 to 1. -/
def luminance? (color : Text) : Option Float :=
  (channels? color).map fun (red, green, blue) =>
    (0.299 * red.toFloat + 0.587 * green.toFloat + 0.114 * blue.toFloat) / 255

def isLight (color : Text) : Bool :=
  match luminance? color with
  | some value => value > 0.5
  | none => false

def dark : Text := "#1A202C".toList

def light : Text := "#FFFFFF".toList

/-- The colour of text on a background. -/
def textOn (background : Text) : Text := if isLight background then dark else light

end Flowchart.Color
