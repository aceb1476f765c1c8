import Flowchart.Toml.Escape

/-!
Names of keys and tables. A name with dots leads through tables; dots and equals signs between
quotes are part of a name.
-/
namespace Flowchart.Toml

def isBareChar (c : Char) : Bool := c.isAlphanum || c == '_' || c == '-'

/-- A name that needs no quotes. -/
def isBare (name : Text) : Bool := !name.isEmpty && name.all isBareChar

namespace Quotes

/-- Goes on splitting at single quotes as long as a single quote is open: there a double quote is a
character like others. -/
def extend : List Text → List Text → List Text × List Text
  | parts, [] => (parts, [])
  | parts, next :: rest =>
    if parts.length % 2 = 0 then
      let last := (parts.getLast?).getD [] ++ Text.doubleQuote :: next
      extend (parts.dropLast ++ last.splitOn Text.singleQuote) rest
    else (parts, next :: rest)

/-- The pieces of a line between its quotes, by turns outside and inside of them. Behind the first
string in double quotes single quotes count no longer. -/
def pieces (line : Text) : List Text :=
  match line.splitOn Text.doubleQuote with
  | first :: second :: rest =>
    if first.contains Text.singleQuote then
      match extend (first.splitOn Text.singleQuote) (second :: rest) with
      | (parts, []) => parts
      | (parts, next :: rest) => parts ++ next.splitOn Text.singleQuote ++ rest
    else first :: second :: rest
  | _ => line.splitOn Text.singleQuote

/-- How many of a mark stand before the first one outside of quotes. -/
def countBefore (mark : Char) (outside : Bool) : List Text → Nat
  | [] => 0
  | piece :: rest =>
    if outside && piece.contains mark then 0
    else piece.count mark + countBefore mark (!outside) rest

/-- The ways to cut a line at a mark, from the first mark outside of quotes on. -/
def cuts (mark : Char) (line : Text) : List (Text × Text) :=
  (Text.cuts mark line).drop (countBefore mark true (pieces line))

end Quotes

/-- The tables that a key is under, and its name in the last of them. -/
structure KeyPath where
  above : List Text := []
  key : Text
  deriving DecidableEq, Repr

namespace KeyPath

/-- The levels of a name, where a dot counts outside of quotes. -/
def levels (outside : Bool) : List Text → List Text
  | [] => []
  | piece :: rest =>
    (if outside then (piece.splitOn '.').map Text.trim else [piece]) ++ levels (!outside) rest

/-- Empty levels lead nowhere. Only a name without dots has its escapes resolved. -/
def ofText (text : Text) : Except Flaw KeyPath :=
  if text.contains '.' then
    let names := if text.any isMark then levels true (Quotes.pieces text) else text.splitOn '.'
    match names.reverse.dropWhile (·.isEmpty) with
    | [] => .error (.broken .listEnd)
    | key :: above => .ok ⟨(above.filter (!·.isEmpty)).reverse, Text.trim key⟩
  else
    match text with
    | [] => .error (.broken .textEnd)
    | first :: rest =>
      if isMark first && text.getLast? == some first then
        (Escape.putLetters rest.dropLast).map fun key => { key }
      else .ok { key := text }

end KeyPath

/-- The names of a header, given what stands between its dots. `waiting` is a quoted name that is
not closed yet; what is in quotes is taken as it is. -/
def headerNames? (waiting : Option Text) : List Text → Option (List Text)
  | [] => if waiting.isSome then none else some []
  | piece :: rest =>
    let name := match waiting with
      | some start => start ++ '.' :: piece
      | none => Text.trim piece
    match Text.trim name with
    | [] => none
    | first :: more =>
      if isMark first then
        if more.getLast? = some first then (headerNames? none rest).map (more.dropLast :: ·)
        else headerNames? (some name) rest
      else if isBare (first :: more) then (headerNames? none rest).map ((first :: more) :: ·)
      else none

end Flowchart.Toml
