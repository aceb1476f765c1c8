import Flowchart.Toml.Value

/-!
What can go wrong with a settings document. A text that breaks the rules of the format is malformed,
which the settings put up with. In a few places reading or writing takes a step that is not
possible, and breaks down.
-/
namespace Flowchart.Toml

inductive Breakdown where
  /-- A character is asked for behind the end of a text. -/
  | textEnd
  /-- An item is asked for behind the end of a list. -/
  | listEnd
  /-- A string that goes on over its line has no name to wait under. -/
  | noValue
  /-- The number of a character does not fit into 31 bits. -/
  | numberTooLarge
  /-- A name is looked for in a value without members. -/
  | noMembers (kind : Text)
  /-- The last item is asked for of a value without items. -/
  | noItems (kind : Text)
  | textByName
  | arrayByName
  | fixedText
  /-- A key that is no text cannot be written. -/
  | noKey (key : Text)
  deriving DecidableEq, Repr

namespace Breakdown

def message : Breakdown → Text
  | textEnd => "string index out of range".toList
  | listEnd => "list index out of range".toList
  | noValue => "cannot access local variable 'value' where it is not associated with a value".toList
  | numberTooLarge => "Python int too large to convert to C int".toList
  | noMembers kind => "argument of type '".toList ++ kind ++ "' is not iterable".toList
  | noItems kind => ['\x27'] ++ kind ++ "' object is not subscriptable".toList
  | textByName => "string indices must be integers, not 'str'".toList
  | arrayByName => "list indices must be integers or slices, not str".toList
  | fixedText => "'str' object does not support item assignment".toList
  | noKey key => Text.quoted key

/-- The kind of fault that a breakdown is. -/
def kind : Breakdown → Text
  | textEnd | listEnd => "range".toList
  | noValue => "unset".toList
  | numberTooLarge => "overflow".toList
  | noKey _ => "key".toList
  | _ => "type".toList

/-- Going on to a name from a value that is no table. A text is searched for the name first. -/
def ofMember (name : Text) : Value → Breakdown
  | .text content => if Text.occursIn name content then textByName else fixedText
  | .array _ => arrayByName
  | other => noMembers other.kind

/-- Opening a table inside a value that is no table, for which its last item is taken. -/
def ofHeader (name : Text) : Value → Breakdown
  | .text content =>
    match content.getLast? with
    | none => textEnd
    | some last => ofMember name (.text [last])
  | .array items =>
    match items.getLast? with
    | none => listEnd
    | some last => ofMember name last
  | other => noItems other.kind

end Breakdown

/-- Why there is no document for a text. -/
inductive Flaw where
  | malformed
  | broken (cause : Breakdown)
  deriving DecidableEq, Repr

end Flowchart.Toml
