import Flowchart.Table
import Flowchart.Text.Blank

/-!
Property lists: pairs `key: value`, separated by commas. The first colon of a pair separates, so a
value may hold further colons; a pair without a key or without a colon is left out.
-/
namespace Flowchart.Property

abbrev Properties := Table Text Text

def known : List Text := ["shape".toList, "color".toList, "icon".toList]

def pair? (piece : Text) : Option (Text × Text) :=
  (Text.cutAt? ':' piece).bind fun (key, value) =>
    if (Text.trim key).isEmpty then none else some (Text.trim key, Text.trim value)

def read (body : Text) : Properties := Table.ofList ((body.splitOn ',').filterMap pair?)

/-- Reads a list together with its brackets. The first and the last character count as the brackets,
whatever they are. -/
def readBracketed (text : Text) : Properties := read (text.drop 1).dropLast

end Flowchart.Property
