import Flowchart.Text.Basic

/-!
Blank characters and trimming. A blank is one of 29 spacing characters of Unicode and ASCII; the
zero-width space, the byte order mark and U+180E are not among them.
-/
namespace Flowchart.Text

def isBlank (c : Char) : Bool :=
  let n := c.toNat
  (9 ≤ n && n ≤ 13) || (28 ≤ n && n ≤ 32) || n == 0x85 || n == 0xA0 || n == 0x1680 ||
    (0x2000 ≤ n && n ≤ 0x200A) || n == 0x2028 || n == 0x2029 || n == 0x202F || n == 0x205F ||
    n == 0x3000

def trimLeft (text : Text) : Text := text.dropWhile isBlank

def trimRight (text : Text) : Text := (text.reverse.dropWhile isBlank).reverse

def trim (text : Text) : Text := trimRight (trimLeft text)

/-- The leading blanks of a text. -/
def indent (text : Text) : Text := text.takeWhile isBlank

theorem indent_append_trimLeft (text : Text) : indent text ++ trimLeft text = text :=
  List.takeWhile_append_dropWhile

end Flowchart.Text
