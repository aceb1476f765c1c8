import Flowchart.Text.Printable

/-!
Quoted text, as messages show it. Single quotes are used unless the text holds one and no double
quote; the quote in use, the backslash and everything that does not print are escaped.
-/
namespace Flowchart.Text

/-- A number in hexadecimal digits, filled up with zeros on the left. -/
def hexPadded (width n : Nat) : Text :=
  let digits := Nat.toDigits 16 n
  List.replicate (width - digits.length) '0' ++ digits

def singleQuote : Char := '\x27'

def doubleQuote : Char := '\x22'

def quoteMark (text : Text) : Char :=
  if singleQuote ∈ text ∧ doubleQuote ∉ text then doubleQuote else singleQuote

def quotedChar (mark c : Char) : Text :=
  if c = mark ∨ c = '\\' then ['\\', c]
  else if c = '\n' then ['\\', 'n']
  else if c = '\r' then ['\\', 'r']
  else if c = '\t' then ['\\', 't']
  else if isPrintable c then [c]
  else if c.toNat < 0x100 then '\\' :: 'x' :: hexPadded 2 c.toNat
  else if c.toNat < 0x10000 then '\\' :: 'u' :: hexPadded 4 c.toNat
  else '\\' :: 'U' :: hexPadded 8 c.toNat

def quoted (text : Text) : Text :=
  let mark := quoteMark text
  mark :: text.flatMap (quotedChar mark) ++ [mark]

end Flowchart.Text
