import Flowchart.Property
import Flowchart.Text.Blank

/-!
Declarations: a label, properties in square brackets, and for a group an opening brace at the end of
the line. The label is the shortest start of the line after which the rest has that form.
-/
namespace Flowchart

namespace Text

/-- At the end of the text, a last line feed not counted. -/
def atEnd (rest : Text) : Bool := rest == [] || rest == ['\n']

/-- The shortest non-empty start without a line feed that leaves a rest accepted by `stop`, and what
`stop` makes of that rest. -/
def upTo? {α : Type} (stop : Text → Option α) : Text → Option (Text × α)
  | [] => none
  | c :: rest =>
    if c = '\n' then none
    else match stop rest with
      | some found => some ([c], found)
      | none => (upTo? stop rest).map fun (start, found) => (c :: start, found)

def isQuote (c : Char) : Bool := c == '\x22' || c == '\x27'

def dropFirstQuote : Text → Text
  | [] => []
  | c :: rest => if isQuote c then rest else c :: rest

/-- The quote may stand before a last line feed. -/
def dropLastQuote (text : Text) : Text :=
  match text.reverse with
  | '\n' :: before => (dropFirstQuote before).reverse ++ ['\n']
  | before => (dropFirstQuote before).reverse

/-- Without one quote at either end; the two need not match. -/
def stripQuotes (text : Text) : Text := dropLastQuote (dropFirstQuote text)

end Text

structure Declaration where
  label : Text
  properties : Property.Properties
  deriving DecidableEq, Repr

namespace Declaration

/-- A body in square brackets after blanks, and the rest behind it. The body ends at the first
closing bracket. -/
def bracketed? (rest : Text) : Option (Text × Text) :=
  match Text.trimLeft rest with
  | '[' :: inside => Text.cutAt? ']' inside
  | _ => none

/-- The body of the brackets, if a rest is nothing but an optional pair of brackets and something
that `closing` accepts. -/
def tail? (closing : Text → Bool) (rest : Text) : Option (Option Text) :=
  match bracketed? rest with
  | some (body, after) =>
    if closing after then some (some body) else if closing rest then some none else none
  | none => if closing rest then some none else none

def opensGroup (rest : Text) : Bool :=
  match Text.trimLeft rest with
  | '\x7b' :: after => Text.atEnd after
  | _ => false

def read? (closing : Text → Bool) (line : Text) : Option Declaration :=
  (Text.upTo? (tail? closing) line).map fun (label, body) =>
    ⟨Text.stripQuotes (Text.trim label), Property.read (body.getD [])⟩

def node? : Text → Option Declaration := read? Text.atEnd

def group? : Text → Option Declaration := read? opensGroup

def color? (declaration : Declaration) : Option Text :=
  declaration.properties.get? "color".toList

def icon? (declaration : Declaration) : Option Text := declaration.properties.get? "icon".toList

def shape? (declaration : Declaration) : Option Text :=
  declaration.properties.get? "shape".toList

end Declaration

end Flowchart
