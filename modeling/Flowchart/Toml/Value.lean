import Flowchart.Decimal.Shortest
import Flowchart.Table
import Flowchart.Text.Quoted

/-!
Values of a settings document, and how messages show them.
-/
namespace Flowchart.Toml

inductive Value where
  | text (content : Text)
  | integer (number : Int)
  | decimal (value : Float)
  | boolean (value : Bool)
  /-- A date or a time: the name of its kind, its text, and its text inside a message. -/
  | moment (kind plain quoted : Text)
  | array (items : List Value)
  | table (entries : List (Text × Value))
  /-- A table with keys that are no text. It is made of a list of pairs, and no text has one. -/
  | dictionary (pairs : List (Value × Value))
  deriving Repr, Inhabited

/-- A document is the table at the top level. -/
abbrev Document := Table Text Value

/-- A value that has no two entries with one key. -/
def Value.HasDistinctKeys (value : Value) : Prop :=
  ∀ entries : Document, value = .table entries → entries.keys.Nodup

/-- A document whose tables at the top level have no two entries with one key. -/
def Distinct (document : Document) : Prop :=
  ∀ name value, document.get? name = some value → value.HasDistinctKeys

theorem distinct_nil : Distinct [] := by
  intro name value found
  contradiction

namespace Value

/-- The name of a value's kind, as messages give it. -/
def kind : Value → Text
  | text _ => "str".toList
  | integer _ => "int".toList
  | decimal _ => "float".toList
  | boolean _ => "bool".toList
  | moment kind _ _ => kind
  | array _ => "list".toList
  | table _ | dictionary _ => "dict".toList

def integerText (number : Int) : Text :=
  if number < 0 then '-' :: Text.ofNat number.natAbs else Text.ofNat number.natAbs

mutual

/-- A value as it is shown inside a message; text is quoted. -/
def quoted : Value → Text
  | text content => Text.quoted content
  | integer n => integerText n
  | decimal value => Decimal.text 2 value
  | boolean true => "True".toList
  | boolean false => "False".toList
  | moment _ _ quoted => quoted
  | array items => '[' :: quotedItems items ++ [']']
  | table entries => '\x7b' :: quotedEntries entries ++ ['\x7d']
  | dictionary pairs => '\x7b' :: quotedPairs pairs ++ ['\x7d']

def quotedItems : List Value → Text
  | [] => []
  | [item] => quoted item
  | item :: rest => quoted item ++ [',', ' '] ++ quotedItems rest

def quotedEntries : List (Text × Value) → Text
  | [] => []
  | [(key, value)] => Text.quoted key ++ [':', ' '] ++ quoted value
  | (key, value) :: rest =>
    Text.quoted key ++ [':', ' '] ++ quoted value ++ [',', ' '] ++ quotedEntries rest

def quotedPairs : List (Value × Value) → Text
  | [] => []
  | [(key, value)] => quoted key ++ [':', ' '] ++ quoted value
  | (key, value) :: rest =>
    quoted key ++ [':', ' '] ++ quoted value ++ [',', ' '] ++ quotedPairs rest

end

/-- A value as text: text stands for itself. -/
def plain : Value → Text
  | text content => content
  | moment _ plain _ => plain
  | other => quoted other

end Value

end Flowchart.Toml
