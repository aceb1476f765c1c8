import Flowchart.Text.Alphanumeric
import Flowchart.Text.Blank
import Flowchart.Toml.Breakdown

/-!
The lines of a document. Comments are blanked, and an array that goes over several lines is drawn
into one. On the way the name in front of the first equals sign of a line is checked.
-/
namespace Flowchart.Toml

def isMark (c : Char) : Bool := c == Text.singleQuote || c == Text.doubleQuote

/-- Whether a text ends inside of an escape, which takes an odd number of backslashes. The text is
given last character first. -/
def endsEscaped (before : Text) : Bool := (before.takeWhile (· == '\\')).length % 2 == 1

/-- The strings that are open at some place. -/
structure Strings where
  mark : Option Char := none
  /-- Whether the place is inside of marks that are three characters long. -/
  long : Bool := false
  deriving DecidableEq, Repr

namespace Strings

/-- A mark opens or closes a string, unless the string has the other mark or the mark is escaped;
only a double quote can be. The third of three equal marks opens or closes a long string. -/
def next (strings : Strings) (before : Text) (c : Char) : Strings :=
  if !isMark c || (strings.mark.isSome && strings.mark != some c) then strings
  else
    let same := ((before.take 2).takeWhile (· == c)).length
    let escaped := c == Text.doubleQuote && same != 1 && endsEscaped (before.drop same)
    if escaped then strings
    else if same = 2 then ⟨if strings.long then none else some c, !strings.long⟩
    else { strings with mark := if strings.mark.isSome then none else some c }

end Strings

/-- How far the name of a key has been read. A name with dots may go on behind a blank. -/
inductive NamePart where
  | inside (dotted : Bool)
  /-- Behind a blank or a quoted part. -/
  | behind (dotted : Bool)
  | quoted (mark : Char) (dotted : Bool)
  deriving DecidableEq, Repr

namespace NamePart

/-- Looks at the next character for another part of a name with dots. -/
def resume : Option Char → Except Flaw NamePart
  | none => .error (.broken .listEnd)
  | some c => .ok (if Text.isBlank c || c == '.' then behind true else inside true)

/-- Nothing but an equals sign ends a name. -/
def finish (c : Char) : Except Flaw (Option NamePart) :=
  if c = '=' then .ok none else .error .malformed

/-- The part after one more character, or none behind the name. -/
def next (before : Text) (c : Char) (ahead : Option Char) :
    NamePart → Except Flaw (Option NamePart)
  | quoted mark dotted =>
    .ok (some (if c = mark ∧ !endsEscaped before then behind dotted else quoted mark dotted))
  | inside dotted =>
    if Text.isBlank c then .ok (some (behind dotted))
    else if c = '.' then .ok (some (inside true))
    else if Text.isAlphanumeric c || c == '_' || c == '-' then .ok (some (inside dotted))
    else if dotted && before.head? == some '.' && isMark c then .ok (some (quoted c true))
    else finish c
  | behind dotted =>
    if Text.isBlank c then if dotted then some <$> resume ahead else .ok (some (behind false))
    else if c = '.' then some <$> resume ahead
    else finish c

end NamePart

/-- A header in one bracket, or in two. -/
inductive HeaderKind where
  | single
  | double
  deriving DecidableEq, Repr

structure Layout where
  /-- The characters so far, last first. -/
  before : Text := []
  strings : Strings := {}
  /-- The opening brackets of arrays less the closing ones. -/
  depth : Int := 0
  /-- The header that is open. -/
  header : Option HeaderKind := none
  inComment : Bool := false
  /-- Whether the line holds nothing yet. -/
  fresh : Bool := true
  name : Option NamePart := none
  deriving DecidableEq, Repr

namespace Layout

def push (layout : Layout) (c : Char) : Layout := { layout with before := c :: layout.before }

/-- Where no string is open, brackets belong to a header at the start of a line, and to arrays
elsewhere; a number sign starts a comment, though not in a header. -/
def bracket (layout : Layout) (c : Char) (ahead : Option Char) : Layout :=
  if layout.strings.mark.isSome then layout
  else
    match layout.header with
    | some .single => if c = ']' then { layout with header := none } else layout
    | some .double =>
      if c = ']' ∧ layout.before.head? = some ']' then { layout with header := none } else layout
    | none =>
      if c = '#' then { layout with inComment := true }
      else if c = ']' then { layout with depth := layout.depth - 1 }
      else if c ≠ '[' then layout
      else if !layout.fresh then { layout with depth := layout.depth + 1 }
      else { layout with header := some (if ahead = some '[' then .double else .single) }

/-- The first character of a line that is not a header starts the name of a key. -/
def begin (layout : Layout) (c : Char) : Except Flaw Layout :=
  if !layout.fresh || layout.inComment || c == ' ' || c == '\t' then .ok layout
  else if layout.header.isSome then .ok { layout with fresh := false }
  else if c = '=' then .error .malformed
  else
    let name := match layout.strings.mark with
      | some mark => NamePart.quoted mark false
      | none => .inside false
    .ok { layout with
      fresh := false, name := some name, strings := { layout.strings with mark := none } }

/-- A character behind the names of keys. -/
def content (layout : Layout) (c : Char) (ahead : Option Char) : Except Flaw Layout := do
  let marked := { layout with strings := layout.strings.next layout.before c }
  let after ← (marked.bracket c ahead).begin c
  return after.push (if after.inComment then ' ' else c)

def character (layout : Layout) (c : Char) (ahead : Option Char) : Except Flaw Layout := do
  if layout.inComment then return layout.push ' '
  match layout.name with
  | none => layout.content c ahead
  | some part =>
    match ← part.next layout.before c ahead with
    | none => content { layout with name := none } c ahead
    | name => return push { layout with name } c

/-- A line feed inside of a long string belongs to it, but is dropped behind the opening mark.
Inside of an array it counts as a blank. -/
def lineFeed (layout : Layout) : Except Flaw Layout :=
  let layout := { layout with inComment := false }
  if layout.name.isSome then .error .malformed
  else if layout.strings.long then
    match layout.before with
    | a :: b :: c :: rest =>
      if isMark a && b == a then
        .ok { layout with before := a :: a :: a :: (if c = a then ' ' else c) :: rest }
      else .ok (layout.push '\n')
    | _ => .ok (layout.push '\n')
  else if layout.strings.mark.isSome then .error .malformed
  else if layout.depth ≠ 0 then .ok (layout.push ' ')
  else .ok (push { layout with fresh := true } '\n')

def next (layout : Layout) (c : Char) (ahead : Option Char) : Except Flaw Layout :=
  if c = '\n' then layout.lineFeed else layout.character c ahead

def run (layout : Layout) : Text → Except Flaw Layout
  | [] => .ok layout
  | c :: rest => do run (← layout.next c rest.head?) rest

/-- The lines of a text. A mark looks back on the characters before it, and before the first
character of the text stands the last one. -/
def lines (text : Text) : Except Flaw (List Text) := do
  let last ← run { before := text.reverse } text
  if last.name.isSome || last.strings.mark.isSome then throw .malformed
  return Text.lines (last.before.take text.length).reverse

end Layout

end Flowchart.Toml
