import Flowchart.Text.Basic

/-!
Letter case as far as it can be seen in an ASCII keyword. Letters that have no ASCII counterpart in
the other case stay as they are: no keyword holds one, so a comparison cannot tell.
-/
namespace Flowchart.Text

/-- The Kelvin sign is the one letter outside ASCII whose lower case is an ASCII letter. -/
def lowerChar (c : Char) : Char :=
  if c = '\u212a' then 'k' else c.toLower

def lower (text : Text) : Text := text.map lowerChar

/-- The upper case of the letters whose upper case is ASCII, ligatures written out. -/
def upperChar (c : Char) : Text :=
  match c.toNat with
  | 0xDF => ['S', 'S']
  | 0x131 => ['I']
  | 0x17F => ['S']
  | 0xFB00 => ['F', 'F']
  | 0xFB01 => ['F', 'I']
  | 0xFB02 => ['F', 'L']
  | 0xFB03 => ['F', 'F', 'I']
  | 0xFB04 => ['F', 'F', 'L']
  | 0xFB05 => ['S', 'T']
  | 0xFB06 => ['S', 'T']
  | _ => [c.toUpper]

def upper (text : Text) : Text := text.flatMap upperChar

/-- Equality of characters when case is ignored; the long s counts as an s. -/
def sameLetter (a b : Char) : Bool :=
  let fold (c : Char) := if c = '\u017f' then 's' else lowerChar c
  fold a == fold b

end Flowchart.Text
