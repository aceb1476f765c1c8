import Flowchart.Text.Quoted

/-!
Paths as they are written: a root and components. Repeated separators and single dots leave no
trace; two dots stay, because only a file tree can say what they mean.
-/
namespace Flowchart

structure Path where
  root : Text := []
  parts : List Text
  deriving DecidableEq, Repr

namespace Path

/-- Two separators in front are a root of their own; one, or more than two, are the ordinary root.
-/
def rootOf (text : Text) : Text :=
  match (text.takeWhile (· == '/')).length with
  | 0 => []
  | 2 => ['/', '/']
  | _ => ['/']

def ofText (text : Text) : Path where
  root := rootOf text
  parts := (text.splitOn '/').filter fun part => part ≠ [] ∧ part ≠ ['.']

def toText (path : Path) : Text :=
  if path.root = [] ∧ path.parts = [] then ['.']
  else path.root ++ ['/'].intercalate path.parts

def name (path : Path) : Text := path.parts.getLast?.getD []

/-- The last dot of a name and what follows it, unless the dot is its first or last character. -/
def suffixOfName (name : Text) : Text :=
  let extension := (name.reverse.takeWhile (· != '.')).reverse
  if extension.isEmpty ∨ name.length ≤ extension.length + 1 then [] else '.' :: extension

def suffix (path : Path) : Text := suffixOfName path.name

def stem (path : Path) : Text := path.name.take (path.name.length - path.suffix.length)

def parent (path : Path) : Path := { path with parts := path.parts.dropLast }

def join (path : Path) (part : Text) : Path := { path with parts := path.parts ++ [part] }

/-- The order of lists of names: name by name, and each of them by code point. -/
def precedes (parts others : List Text) : Bool :=
  List.lex parts others fun name other => List.lex name other fun c d => decide (c < d)

inductive SuffixError where
  | invalid (suffix : Text)
  | nameless (path : Path)
  deriving DecidableEq, Repr

def SuffixError.message : SuffixError → Text
  | invalid suffix => "Invalid suffix ".toList ++ Text.quoted suffix
  | nameless path =>
    "PosixPath(".toList ++ Text.quoted path.toText ++ ") has an empty name".toList

/-- A suffix is empty, or a dot with something but no separator behind it. -/
def isSuffix (suffix : Text) : Bool :=
  !suffix.contains '/' && (suffix.isEmpty || (suffix.head? == some '.' && suffix != ['.']))

/-- The path with another suffix; an empty one only removes the old. -/
def withSuffix (path : Path) (suffix : Text) : Except SuffixError Path :=
  if !isSuffix suffix then .error (.invalid suffix)
  else if path.name = [] then .error (.nameless path)
  else .ok (path.parent.join (path.stem ++ suffix))

end Path

end Flowchart
