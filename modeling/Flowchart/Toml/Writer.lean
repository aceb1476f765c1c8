import Flowchart.Toml.Name

/-!
Writing a settings document. A table is written as its own lines; its sub-tables follow under their
full names, all tables of one depth before those of the next.
-/
namespace Flowchart.Toml

namespace Writer

def escapeChar (c : Char) : Text :=
  if c = '\x22' ∨ c = '\\' then ['\\', c]
  else if c = '\n' then ['\\', 'n']
  else if c = '\r' then ['\\', 'r']
  else if c = '\t' then ['\\', 't']
  else if Text.isPrintable c then [c]
  else if c.toNat < 0x100 then '\\' :: 'x' :: Text.hexPadded 2 c.toNat
  else if c.toNat < 0x10000 then '\\' :: 'u' :: Text.hexPadded 4 c.toNat
  else '\\' :: 'U' :: Text.hexPadded 8 c.toNat

/-- One backslash for two. -/
def halve : Text → Text
  | '\\' :: '\\' :: rest => '\\' :: halve rest
  | c :: rest => c :: halve rest
  | [] => []

/-- What stands in place of a backslash and an `x` behind a text: the `x` alone, or digits in front
of two more where the text ends with an even number of backslashes. A text of backslashes alone
counts as having one less. -/
def joint (before : Text) : Text :=
  let backslashes := (before.reverse.takeWhile (· == '\\')).length
  if backslashes = 0 ∨ (min backslashes (before.length - 1)) % 2 = 1 then ['x']
  else "u00".toList

/-- Puts pieces together that a backslash and an `x` have parted. -/
def join (first : Text) : List Text → Text
  | [] => first
  | second :: rest =>
    let before := halve first
    join (before ++ joint before ++ second) rest

/-- The content of a string without two-digit escapes, which the format does not have. An empty
piece in front is dropped, and then there has to be a second one. -/
def respell (content : Text) : Except Breakdown Text :=
  match Text.splitOnPair '\\' 'x' content with
  | [] :: [_] => .error .listEnd
  | [] :: first :: rest => .ok (join first rest)
  | first :: rest => .ok (join first rest)
  | [] => .ok []

def string (content : Text) : Except Breakdown Text := do
  return '\x22' :: (← respell (content.flatMap escapeChar)) ++ ['\x22']

/-- A line feed at the end of a name is overlooked. -/
def key (name : Text) : Except Breakdown Text :=
  if isBare name || (name.getLast? == some '\n' && isBare name.dropLast) then .ok name
  else string name

mutual

/-- A value on one line; an item of an array ends with a comma. -/
def value : Value → Except Breakdown Text
  | .text content => string content
  | .integer n => .ok (Value.integerText n)
  | .decimal number => .ok (Decimal.text 1 number)
  | .boolean true => .ok "true".toList
  | .boolean false => .ok "false".toList
  | .array content => do return '[' :: (← items content) ++ [']']
  | .moment _ plain _ => .ok plain
  | .table _ | .dictionary _ => .ok []

def items : List Value → Except Breakdown Text
  | [] => .ok []
  | item :: rest => do return ' ' :: (← value item) ++ ',' :: (← items rest)

end

/-- The first key that is no text. -/
def strangeKey? (pairs : List (Value × Value)) : Option Text :=
  pairs.findSome? fun
    | (.text _, _) => none
    | (key, _) => some key.plain

/-- The lines of a table that are its own. -/
def ownLines : Document → Except Breakdown Text
  | [] => .ok []
  | (_, .table _) :: rest => ownLines rest
  | (_, .dictionary pairs) :: rest =>
    match strangeKey? pairs with
    | some key => .error (.noKey key)
    | none => ownLines rest
  | (name, content) :: rest => do
    return (← key name) ++ " = ".toList ++ (← value content) ++ '\n' :: (← ownLines rest)

/-- The tables in a table by the names in their headers. Of two tables with the same name the last
one is written, in place of the first. -/
def subtables (written : Table Text Document) : Document → Except Breakdown (Table Text Document)
  | [] => .ok written
  | (name, .table inner) :: rest => do subtables (written.put (← key name) inner) rest
  | _ :: rest => subtables written rest

/-- A table under its header; an empty line comes before the header, unless the text so far is empty
or ends with one. A table that holds nothing but tables has no header. -/
def addTable (written name own : Text) (inner : Table Text Document) : Text :=
  if own = [] ∧ inner ≠ [] then written
  else
    let gap := if written = [] ∨ written.reverse.take 2 = ['\n', '\n'] then [] else ['\n']
    written ++ gap ++ '[' :: name ++ [']', '\n'] ++ own

/-- Adds tables of one depth, and yields the text and the tables below them. -/
def addAll (written : Text) (below : Table Text Document) :
    Table Text Document → Except Breakdown (Text × Table Text Document)
  | [] => .ok (written, below)
  | (name, entries) :: rest => do
    let own ← ownLines entries
    let inner ← subtables [] entries
    let named := inner.map fun (last, entries) => (name ++ '.' :: last, entries)
    addAll (addTable written name own inner) (below.merge named) rest

/-- Tables of one depth, then those below them, at most `depth` times. -/
def addTables (depth : Nat) (written : Text) (tables : Table Text Document) :
    Except Breakdown Text :=
  match depth with
  | 0 => .ok written
  | depth + 1 => do
    let (after, below) ← addAll written [] tables
    addTables depth after below

mutual

/-- How deep tables are nested in a value. -/
def depth : Value → Nat
  | .table entries => depthOf entries + 1
  | _ => 0

def depthOf : List (Text × Value) → Nat
  | [] => 0
  | (_, content) :: rest => max (depth content) (depthOf rest)

end

def document (entries : Document) : Except Breakdown Text := do
  addTables (depthOf entries) (← ownLines entries) (← subtables [] entries)

end Writer

end Flowchart.Toml
