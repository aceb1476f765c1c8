import Flowchart.Text.Digit
import Flowchart.Toml.Layout

/-!
Escapes in strings. Characters given by their number are put in first, so that a backslash given in
this way takes part in the escapes by a letter.
-/
namespace Flowchart.Toml.Escape

def letter? : Char → Option Char
  | '0' => some '\x00'
  | 'b' => some '\x08'
  | 'f' => some '\x0c'
  | 'n' => some '\n'
  | 'r' => some '\r'
  | 't' => some '\t'
  | '\x22' => some '\x22'
  | '\\' => some '\\'
  | _ => none

/-- The letters in front of four and of eight digits. -/
def isNumberMark (c : Char) : Bool := c == 'u' || c == 'U'

def areKnown : Text → Bool
  | '\\' :: c :: rest => ((letter? c).isSome || isNumberMark c) && areKnown rest
  | _ :: rest => areKnown rest
  | [] => true

/-- The character of a number, whose digits may not be those of a surrogate. -/
def character (digits : Text) : Except Flaw Char :=
  match Text.numberIn? 16 digits with
  | none => .error .malformed
  | some n =>
    match digits.map Char.toLower with
    | [] | ['d'] => .error (.broken .textEnd)
    | first :: second :: _ =>
      if first = 'd' ∧ !('0' ≤ second && second ≤ '7') then .error .malformed else ofNumber n
    | _ => ofNumber n
where
  ofNumber (n : Nat) : Except Flaw Char :=
    if n.isValidChar then .ok (Char.ofNat n)
    else if n < 0x80000000 then .error .malformed
    else .error (.broken .numberTooLarge)

/-- Puts characters in for the numbers at the start of the pieces. An escaped backslash in front of
a number mark leaves the number as it is; whether it is escaped is looked at for the first piece,
and behind each number that was left. -/
def join (mark : Char) (width : Nat) (escaped : Bool) (done : Text) :
    List Text → Except Flaw Text
  | [] => .ok done
  | piece :: rest =>
    if escaped then
      join mark width (endsEscaped piece.reverse) (done ++ '\\' :: mark :: piece) rest
    else do
      let first ← character (piece.take width)
      join mark width false (done ++ first :: piece.drop width) rest

def putNumbers (mark : Char) (width : Nat) (text : Text) : Except Flaw Text :=
  match Text.splitOnPair '\\' mark text with
  | [] => .ok text
  | first :: rest => join mark width (endsEscaped first.reverse) first rest

/-- Puts characters in for letters; a number mark stays. -/
def putLetters : Text → Except Flaw Text
  | '\\' :: c :: rest =>
    match letter? c with
    | some shown => return shown :: (← putLetters rest)
    | none =>
      if isNumberMark c then return '\\' :: c :: (← putLetters rest) else .error .malformed
  | c :: rest => return c :: (← putLetters rest)
  | [] => .ok []

def resolve (text : Text) : Except Flaw Text :=
  if areKnown text then do putLetters (← putNumbers 'U' 8 (← putNumbers 'u' 4 text))
  else .error .malformed

end Flowchart.Toml.Escape
