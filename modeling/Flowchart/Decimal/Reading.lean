import Flowchart.Text.Blank
import Flowchart.Text.Digit

/-!
Reading a double from text: blanks around it, a sign, digits of any script with single underscores
between them, a point, an exponent, or a word for infinity or no number.
-/
namespace Flowchart.Decimal

/-- The four separators of ASCII are blanks, but not around a number. -/
def isSpace (c : Char) : Bool := Text.isBlank c && !(0x1C ≤ c.toNat && c.toNat ≤ 0x1F)

def trimSpace (text : Text) : Text :=
  ((text.dropWhile isSpace).reverse.dropWhile isSpace).reverse

/-- Digits of all scripts as ASCII digits. -/
def asciiDigits (text : Text) : Text :=
  text.map fun c => ((Text.digit? c).map Nat.digitChar).getD c

/-- The text without underscores, if each stands between two digits; `afterDigit` tells whether a
digit came before. -/
def dropUnderscores? (afterDigit : Bool) : Text → Option Text
  | [] => some []
  | '_' :: rest =>
    match rest with
    | c :: _ => if afterDigit && c.isDigit then dropUnderscores? false rest else none
    | [] => none
  | c :: rest => (dropUnderscores? c.isDigit rest).map (c :: ·)

def natOf (digits : Text) : Nat := digits.foldl (fun n c => 10 * n + (c.toNat - '0'.toNat)) 0

/-- A sign in front of a text, if there is one. -/
def sign : Text → Bool × Text
  | '-' :: rest => (true, rest)
  | '+' :: rest => (false, rest)
  | text => (false, text)

/-- The exponent behind a coefficient, which is zero if nothing is written. -/
def exponent? : Text → Option Int
  | [] => some 0
  | mark :: rest =>
    let (negative, digits) := sign rest
    if mark.toLower = 'e' ∧ digits ≠ [] ∧ digits.all Char.isDigit then
      some (if negative then -(natOf digits : Int) else natOf digits)
    else none

/-- Beyond the largest double lies infinity, and below the smallest one zero. -/
def scale (coefficient : Nat) (exponent : Int) : Float :=
  let magnitude : Int := (Nat.toDigits 10 coefficient).length + exponent
  if coefficient = 0 ∨ magnitude < -400 then 0
  else if 400 < magnitude then 1 / 0
  else Float.ofScientific coefficient (exponent < 0) exponent.natAbs

def magnitude? (text : Text) : Option Float :=
  let word := text.map Char.toLower
  if word = "inf".toList ∨ word = "infinity".toList then some (1 / 0)
  else if word = "nan".toList then some (0 / 0)
  else
    let whole := text.takeWhile Char.isDigit
    let afterWhole := text.dropWhile Char.isDigit
    let (fraction, rest) := match afterWhole with
      | '.' :: behind => (behind.takeWhile Char.isDigit, behind.dropWhile Char.isDigit)
      | _ => ([], afterWhole)
    if whole = [] ∧ fraction = [] then none
    else (exponent? rest).map fun exponent =>
      scale (natOf (whole ++ fraction)) (exponent - fraction.length)

def read? (text : Text) : Option Float := do
  let plain ← dropUnderscores? false (asciiDigits (trimSpace text))
  let (negative, rest) := sign plain
  let number ← magnitude? rest
  return if negative then -number else number

end Flowchart.Decimal
