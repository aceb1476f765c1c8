import Flowchart.Text.Utf8

/-!
Form encoding of query strings: letters, digits and four marks stand for themselves, a space is a
plus sign, and any other byte is written in two hexadecimal digits after a percent sign.
-/
namespace Flowchart.Form

def isPlain (byte : UInt8) : Bool :=
  let c := Char.ofNat byte.toNat
  byte < 0x80 && (c.isAlphanum || c == '_' || c == '.' || c == '-' || c == '~')

def hexDigit (n : Nat) : Char := "0123456789ABCDEF".toList.getD (n % 16) '0'

def encodeByte (byte : UInt8) : Text :=
  if isPlain byte then [Char.ofNat byte.toNat]
  else if byte = 0x20 then ['+']
  else ['%', hexDigit (byte.toNat / 16), hexDigit byte.toNat]

def encode (text : Text) : Text := text.toUtf8.flatMap encodeByte

def query (fields : List (Text × Text)) : Text :=
  ['&'].intercalate (fields.map fun (name, value) => encode name ++ '=' :: encode value)

end Flowchart.Form
