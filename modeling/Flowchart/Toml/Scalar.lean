import Flowchart.Decimal.Reading
import Flowchart.Toml.Escape

/-!
Values on one line: strings, truth values, numbers, and flat arrays of one kind.
-/
namespace Flowchart.Toml

namespace Scalar

/-- The text without its first and its last `n` characters. -/
def within (n : Nat) (text : Text) : Text := (text.drop n).take (text.length - 2 * n)

/-- Whether nothing stands behind the mark that closes a string, given the parts of the string
between its marks. Empty parts come from marks in a row. -/
def closesLast (long : Bool) (closed : Bool) (empty : Nat) : List Text → Bool
  | [] => true
  | part :: rest =>
    if part = [] then
      if long then closesLast long closed (empty + 1) rest else closesLast long true empty rest
    else if endsEscaped part.reverse then closesLast long closed empty rest
    else if closed then false
    else if !long || 1 < empty then closesLast long true empty rest
    else closesLast long closed 0 rest

def isClosed (mark : Char) (text : Text) : Bool :=
  match (text.drop 1).splitOn mark with
  | [] :: [] :: parts => closesLast true false 0 parts
  | parts => closesLast false false 0 parts

/-- What stands between the marks. Two marks in front tell that each end has three. -/
def content (mark : Char) (text : Text) : Text :=
  let long := match text with
    | _ :: second :: rest => second == mark && (rest.isEmpty || rest.head? == some mark)
    | _ => false
  within 1 (if long then within 2 text else text)

/-- Only strings in double quotes have escapes. -/
def string (mark : Char) (text : Text) : Except Flaw Text :=
  if !isClosed mark text then .error .malformed
  else if mark = Text.doubleQuote then do return content mark (← Escape.resolve text)
  else .ok (content mark text)

/-- A number may not begin with needless zeros, and an underscore has to stand inside of it. -/
def isWellFormed (text : Text) : Bool :=
  let text := Text.trim text
  let leadingZero (allowed : Text) : Text → Bool
    | '0' :: c :: _ => !allowed.contains c
    | _ => false
  let unsigned := if text.head? == some '-' || text.head? == some '+' then text.drop 1 else text
  let pairs := text.zip (text.drop 1)
  text.head? != some '_' && text.getLast? != some '_' &&
    !pairs.any (fun pair => pair == ('_', '.') || pair == ('.', '_') || pair == ('_', '_')) &&
    !leadingZero ".obx".toList text &&
    (unsigned.length == text.length || !leadingZero ['.'] unsigned)

/-- Digits without a sign. Zeros come first in nothing but zero. -/
def natural? (digits : Text) : Option Nat :=
  let inBase (base : Nat) (digits : Text) :=
    if digits = [] then none else Text.numberIn? base digits
  match digits with
  | '0' :: c :: rest =>
    match c.toLower with
    | 'x' => inBase 16 rest
    | 'o' => inBase 8 rest
    | 'b' => inBase 2 rest
    | _ => if (c :: rest).all (· == '0') then some 0 else none
  | digits => inBase 10 digits

def integer? (text : Text) : Option Int :=
  let (negative, digits) := Decimal.sign (Decimal.asciiDigits (Decimal.trimSpace text))
  (natural? digits).map fun n => if negative then -(n : Int) else n

/-- A number is negated by taking it from zero, so that there is no negative zero. Underscores stand
for nothing. -/
def number? (text : Text) : Option Value :=
  let (negative, rest) := Decimal.sign text
  let digits := rest.filter (· != '_')
  let word := digits.map Char.toLower
  let decimal (value : Float) := Value.decimal (if negative then 0 - value else value)
  if digits.contains '.' || (!digits.contains 'x' && word.contains 'e') then
    if digits.getLast? = some '.' ∨ !(digits.headD ' ').isDigit then none
    else (Decimal.read? digits).map decimal
  else if word = "inf".toList ∨ word = "nan".toList then (Decimal.read? digits).map decimal
  else (integer? digits).map fun n => .integer (if negative then -n else n)

/-- The value of a text. Outside of arrays a number has to be well-formed. -/
def read (wellFormed : Bool) (text : Text) : Except Flaw Value :=
  if text = "true".toList then .ok (.boolean true)
  else if text = "false".toList then .ok (.boolean false)
  else
    match text with
    | [] => .error .malformed
    | c :: _ =>
      if isMark c then Value.text <$> string c text
      else if !wellFormed then .error .malformed
      else
        match number? text with
        | some value => .ok value
        | none => .error .malformed

end Scalar

namespace Value

def startsWithString (text : Text) : Bool := (text.head?.map isMark).getD false

/-- Whether the last character of an item closes what the first one opens. -/
def isWhole (item : Text) : Bool :=
  let shown := Text.trim item
  match shown with
  | [] => true
  | first :: rest =>
    shown.getLast? == some first && !endsEscaped (rest.dropLast.reverse) &&
      !(2 < shown.length && shown.take 3 == [first, first, first] &&
        !((shown.reverse.drop 1).take 2).contains first)

/-- Puts pieces together again that a comma inside of a string has parted. The last piece is taken
as it is, unless another one was put in front of it. -/
def joinStrings (piece : Text) : List Text → Except Flaw (List Text)
  | [] => if isWhole piece then .ok [piece] else .error (.broken .listEnd)
  | [last] =>
    if isWhole piece then .ok [piece, last] else joinStrings (piece ++ ',' :: last) []
  | next :: rest =>
    if isWhole piece then do return piece :: (← joinStrings next rest)
    else joinStrings (piece ++ ',' :: next) rest

/-- The pieces of an array. -/
def pieces (inside : Text) : Except Flaw (List Text) :=
  match inside.splitOn ',' with
  | piece :: next :: rest =>
    if startsWithString (Text.trim inside) then joinStrings piece (next :: rest)
    else .ok (piece :: next :: rest)
  | few => .ok few

/-- Empty items are passed over. -/
def items (kind : Option Text) : List Text → Except Flaw (List Value)
  | [] => .ok []
  | piece :: rest =>
    if (Text.trim piece).isEmpty then items kind rest
    else do
      let item ← Scalar.read true (Text.trim piece)
      if kind.all (· == item.kind) then return item :: (← items (some item.kind) rest)
      else throw .malformed

/-- The value of a text; arrays hold no arrays. -/
def read (wellFormed : Bool) (text : Text) : Except Flaw Value :=
  match text with
  | '[' :: rest => do return .array (← items none (← pieces rest.dropLast))
  | _ => Scalar.read wellFormed text

end Value

end Flowchart.Toml
