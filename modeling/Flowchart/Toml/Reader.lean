import Flowchart.Toml.Name
import Flowchart.Toml.Scalar

/-!
Reading a settings document: comments, tables, keys with strings, numbers, truth values and flat
arrays. A string in three quotes may go over several lines.
-/
namespace Flowchart.Toml

namespace Reader

/-- A string that is not closed on its line. -/
structure Pending where
  key : Text
  content : Text
  /-- Whether the line feed is escaped. -/
  continued : Bool
  deriving DecidableEq, Repr

structure State where
  document : Document := []
  /-- The names of tables that were made for the sake of another one. -/
  implied : List Text := []
  /-- The table that is open. -/
  current : List Text := []
  pending : Option Pending := none
  deriving Repr

/-- Opens a table, making those above it. Only a name that is implied may be opened again, once. -/
def openTable : List Text → List Text → Document → Except Flaw (Document × List Text)
  | [], implied, entries => .ok (entries, implied)
  | name :: rest, implied, entries =>
    if name = [] then .error .malformed
    else
      match entries.get? name, rest with
      | none, [] => .ok (entries.put name (.table []), implied)
      | some _, [] =>
        if implied.contains name then .ok (entries, implied.erase name) else .error .malformed
      | none, _ => do
        let (inner, implied) ← openTable rest (implied ++ [name]) []
        return (entries.put name (.table inner), implied)
      | some (.table inner), _ => do
        let (inner, implied) ← openTable rest implied inner
        return (entries.put name (.table inner), implied)
      | some _, [] :: _ => .error .malformed
      | some other, next :: _ => .error (.broken (.ofHeader next other))

/-- Makes the tables of a path that are missing. -/
def grow : List Text → Document → Except Flaw Document
  | [], entries => .ok entries
  | name :: rest, entries =>
    match (entries.get? name).getD (.table []), rest with
    | .table inner, _ => do return entries.put name (.table (← grow rest inner))
    | _, [] => .ok entries
    | other, next :: _ => .error (.broken (.ofMember next other))

/-- Changes the table at a path, where there is one. -/
def adjust? (change : Document → Option Document) : List Text → Document → Option Document
  | [], entries => change entries
  | name :: rest, entries =>
    match entries.get? name with
    | some (.table inner) =>
      (adjust? change rest inner).map fun inner => entries.put name (.table inner)
    | _ => none

/-- Writes an entry unless its key has one. -/
def putNew? (key : Text) (value : Value) (entries : Document) : Option Document :=
  if (entries.get? key).isSome then none else some (entries.put key value)

def orMalformed {α : Type} : Option α → Except Flaw α
  | some result => .ok result
  | none => .error .malformed

/-- What stands between the bracket that opens a header and the one that closes it. -/
def headerText? (rest : Text) : Option Text :=
  match Quotes.cuts ']' rest with
  | (inside, behind) :: _ => if (Text.trim behind).isEmpty then some inside else none
  | [] => none

def header (state : State) (rest : Text) : Except Flaw State := do
  let inside ← orMalformed (headerText? rest)
  let names ← orMalformed (headerNames? none (inside.splitOn '.'))
  let (document, implied) ← openTable names state.implied state.document
  return { state with document, implied, current := names }

/-- What may stand directly behind an equals sign. -/
def startsValue (text : Text) : Bool :=
  match text with
  | [] => true
  | c :: _ =>
    isMark c || c == ' ' || c == '\t' || c == '[' || c == '\x7b' ||
      Text.trim text == "true".toList || Text.trim text == "false".toList ||
      (Decimal.read? text).isSome

/-- A number that directly follows an equals sign, without its underscores. -/
def withoutUnderscores (text : Text) : Text :=
  if (text.headD ' ').isDigit then text.filter (· != '_') else text

/-- The key and the value of a line, and whether the value is well-formed as a number. They are
parted by the first equals sign outside of quotes behind which a value may start, or by the last one
if all are inside of quotes. Whatever was passed over has to be well-formed as well. -/
def divide? (line : Text) : Option (Text × Text × Bool) :=
  let outside := Quotes.cuts '=' line
  let cuts := if outside.isEmpty then (Text.cuts '=' line).getLast?.toList else outside
  let plain := cuts.modifyHead fun (left, right) => (left, withoutUnderscores right)
  let passed := (plain.takeWhile (!startsValue ·.2)).length
  match plain.drop passed with
  | [] => none
  | (left, right) :: _ =>
    some (Text.trim left, Text.trim right, (cuts.take (passed + 1)).all (Scalar.isWellFormed ·.2))

/-- The last string of an array that is not closed: pieces are put together from the end until one
starts with a quote. -/
def lastString (last : Text) : List Text → Except Flaw Text
  | [] => .ok last
  | before :: rest =>
    match last with
    | [] => .error (.broken .textEnd)
    | c :: _ => if isMark c then .ok last else lastString (before ++ ',' :: last) rest

/-- Whether a string in three quotes is open at the end of a text. -/
def isOpen (text : Text) : Except Flaw Bool :=
  match text with
  | [] => .error (.broken .textEnd)
  | mark :: rest =>
    if !isMark mark then .ok false
    else
      match rest with
      | [] => .error (.broken .textEnd)
      | second :: rest =>
        if second ≠ mark then .ok false
        else
          match rest with
          | [] => .error (.broken .textEnd)
          | third :: _ =>
            let marks := [mark, mark, mark]
            .ok (third == mark && !(5 < text.length && text.reverse.take 3 == marks))

/-- Whether a value goes on in the next line. -/
def goesOn (value : Text) : Except Flaw Bool :=
  if value.length < 3 then .ok false
  else
    match value with
    | '[' :: rest =>
      if value.getLast? ≠ some ']' ∧ Value.startsWithString (Text.trim rest.dropLast) then
        match ((Text.trim rest).splitOn ',').reverse with
        | [] => .ok false
        | last :: before => do isOpen (← lastString last before)
      else .ok false
    | _ => isOpen value

/-- Holds on to a string that goes on. A backslash at the end of a line takes the line feed away. -/
def hold (key content : Text) : Pending :=
  if endsEscaped content.reverse then ⟨key, content.dropLast, true⟩
  else ⟨key, content ++ ['\n'], false⟩

def assignment (state : State) (line : Text) : Except Flaw State := do
  let (left, right, wellFormed) ← orMalformed (divide? line)
  let path ← KeyPath.ofText left
  let place := state.current ++ path.above
  let document ← grow place state.document
  let write (value : Value) := orMalformed (adjust? (putNew? path.key value) place document)
  if ← goesOn right then
    let _ ← write (.text [])
    if path.key.isEmpty then throw (.broken .noValue)
    return { state with document, pending := some (hold path.key right) }
  else
    let value ← Value.read wellFormed right
    return { state with document := ← write value }

/-- Goes on with a string. One that stands in an array ends with the bracket of the array. -/
def resume (state : State) (pending : Pending) (line : Text) : Except Flaw State := do
  let line := if pending.continued then Text.trim line else line
  let content := pending.content ++ line
  if pending.continued && line.isEmpty then return state
  let isClosed ← match content, line.getLast? with
    | '[' :: _, none => throw (.broken .textEnd)
    | '[' :: _, some last => pure (last == ']')
    | mark :: _, _ => pure (2 < line.length && line.reverse.take 3 == [mark, mark, mark])
    | [], _ => pure false
  if isClosed then
    let value ← Value.read true content
    let put (entries : Document) : Option Document := some (entries.put pending.key value)
    return { state with
      document := ← orMalformed (adjust? put state.current state.document), pending := none }
  else return { state with pending := some (hold pending.key content) }

/-- A line that is neither a header nor an assignment says nothing. No line starts with a brace. -/
def next (state : State) (line : Text) : Except Flaw State :=
  match state.pending with
  | some pending => resume state pending line
  | none =>
    match Text.trim line with
    | [] => .ok state
    | '[' :: rest => header state rest
    | '\x7b' :: _ => .error .malformed
    | shown => if shown.contains '=' then assignment state shown else .ok state

def document (text : Text) : Except Flaw Document := do
  let state ← (← Layout.lines text).foldlM next {}
  return state.document

end Reader

end Flowchart.Toml
