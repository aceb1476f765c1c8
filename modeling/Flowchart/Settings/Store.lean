import Flowchart.Failure
import Flowchart.Settings
import Flowchart.Toml.Library

/-!
The settings file: one section of a document that other sections share. Loading takes the default
for every key that is missing or has no usable value; saving keeps everything outside the section.
-/
namespace Flowchart.Settings

def sectionName : Text := "flowdsl".toList

/-- The directory of the settings file, and the library for the document in the file. -/
structure Home where
  directory : Path
  library : Toml.Library

def Home.file (home : Home) : Path := home.directory.join "config.toml".toList

/-- Something in place of the section that cannot be made a table. -/
inductive Misfit where
  /-- A value without items. -/
  | notIterable (kind : Text)
  /-- An item that is no pair of a key and a value. -/
  | notSequence (index : Nat)
  | wrongLength (index length : Nat)
  /-- A key that can change. -/
  | unhashable (kind : Text)
  deriving DecidableEq, Repr

def Misfit.message : Misfit → Text
  | notIterable kind => ['\x27'] ++ kind ++ "' object is not iterable".toList
  | notSequence index =>
    "cannot convert dictionary update sequence element #".toList ++ Text.ofNat index ++
      " to a sequence".toList
  | wrongLength index length =>
    "dictionary update sequence element #".toList ++ Text.ofNat index ++ " has length ".toList ++
      Text.ofNat length ++ "; 2 is required".toList
  | unhashable kind => "unhashable type: '".toList ++ kind ++ ['\x27']

inductive Error where
  | failure (cause : Failure)
  | unknownKey (name : Text)
  | refused (refusal : Refusal)
  | misfit (cause : Misfit)
  | mishap (cause : Toml.Mishap)
  deriving DecidableEq, Repr

def Error.message : Error → Text
  | failure cause => cause.message
  | unknownKey name => Text.quoted name
  | refused refusal => refusal.message
  | misfit cause => cause.message
  | mishap cause => cause.fault.detail

/-- What a step on the settings file answers, and the warnings on the way. -/
abbrev Step (α : Type) := Except Error α × List Log.Entry

def warning (message : Text) : Log.Entry := ⟨.warning, .settings, message⟩

/-- The document in the settings file. One that is missing is empty, and one that cannot be read
counts as empty, with a warning. -/
def readDocument (home : Home) (tree : FileTree) : Step Toml.Document :=
  let unreadable := [warning ("Could not read ".toList ++ home.file.toText)]
  match tree.look home.file with
  | .error failure => (.error (.failure failure), [])
  | .ok none => (.ok [], [])
  | .ok (some _) =>
    match tree.readText home.file with
    | .ok text =>
      match home.library.read text with
      | .ok document => (.ok document, [])
      | .error .malformed => (.ok [], unreadable)
      | .error (.failed cause) => (.error (.mishap cause), [])
    | .error (.file _) => (.ok [], unreadable)
    | .error cause => (.error (.failure cause), [])

/-- Takes one entry of the section over the settings, or leaves them with a warning. -/
def takeEntry (home : Home) (settings : Settings) (name : Text) (value : Toml.Value) :
    Settings × List Log.Entry :=
  match Key.ofName? name with
  | none => (settings, [])
  | some key =>
    match settings.put key value.plain with
    | .ok after => (after, [])
    | .error _ =>
      let standard : Settings := {}
      (settings, [warning ("Ignoring invalid ".toList ++ name ++ " = ".toList ++ value.quoted ++
        " in ".toList ++ home.file.toText ++ "; using ".toList ++ (standard.get key).quoted)])

def takeSection (home : Home) (entries : Toml.Document) : Settings × List Log.Entry :=
  entries.foldl
    (fun (settings, log) (name, value) =>
      let (settings, more) := takeEntry home settings name value
      (settings, log ++ more))
    ({}, [])

/-- The entries of the section; anything but a table has none. -/
def sectionOf (document : Toml.Document) : Toml.Document :=
  match document.get? sectionName with
  | some (.table entries) => entries
  | _ => []

def load (home : Home) (tree : FileTree) : Step Settings :=
  match readDocument home tree with
  | (.error error, log) => (.error error, log)
  | (.ok document, log) =>
    let (settings, more) := takeSection home (sectionOf document)
    (.ok settings, log ++ more)

/-- The pair that an item of an array stands for: text of two characters, an array of two items, or
the keys of a table with two of them. -/
def pairOf (index : Nat) : Toml.Value → Except Misfit (Toml.Value × Toml.Value)
  | .text [key, value] => .ok (.text [key], .text [value])
  | .text content => .error (.wrongLength index content.length)
  | .array [.array _, _] => .error (.unhashable "list".toList)
  | .array [.table _, _] | .array [.dictionary _, _] => .error (.unhashable "dict".toList)
  | .array [key, value] => .ok (key, value)
  | .array items => .error (.wrongLength index items.length)
  | .table [(key, _), (value, _)] => .ok (.text key, .text value)
  | .table entries => .error (.wrongLength index entries.length)
  | .dictionary [(key, _), (value, _)] => .ok (key, value)
  | .dictionary pairs => .error (.wrongLength index pairs.length)
  | _ => .error (.notSequence index)

def pairsOf (index : Nat) : List Toml.Value → Except Misfit (List (Toml.Value × Toml.Value))
  | [] => .ok []
  | item :: rest => do
    let pair ← pairOf index item
    return pair :: (← pairsOf (index + 1) rest)

def entryOf? : Toml.Value × Toml.Value → Option (Text × Toml.Value)
  | (.text key, value) => some (key, value)
  | _ => none

/-- The table of some pairs with entries written over it. -/
def overPairs (pairs : List (Toml.Value × Toml.Value)) (updates : Toml.Document) : Toml.Value :=
  match pairs.mapM entryOf? with
  | some entries => .table (Table.merge (.ofList entries) updates)
  | none => .dictionary (pairs ++ updates.map fun (key, value) => (.text key, value))

/-- The section with entries written over it. A value without entries cannot be one. -/
def updated (updates : Toml.Document) : Toml.Value → Except Misfit Toml.Value
  | .table entries => .ok (.table (Table.merge entries updates))
  | .dictionary pairs => .ok (overPairs pairs updates)
  | .text [] => .ok (overPairs [] updates)
  | .text _ => .error (.wrongLength 0 1)
  | .array items => (pairsOf 0 items).map (overPairs · updates)
  | other => .error (.notIterable other.kind)

/-- Writes the settings file, and makes its directory if that is missing. The file is emptied before
its text is made up, so a document that cannot be written leaves it empty. The answer is the file
tree after the attempt, and the error that ended it. -/
def writeDocument (home : Home) (tree : FileTree) (document : Toml.Document) :
    FileTree × Option Error :=
  if tree.isFile home.directory then
    (tree, some (.failure (.file ⟨.occupied, home.directory.toText⟩)))
  else
    let written := home.library.write document
    let content := (written.toOption.getD []).toUtf8
    match (tree.makeDirectories (tree.resolve home.directory)).save home.file content with
    | .error failure => (tree, some (.failure failure))
    | .ok after =>
      match written with
      | .error cause => (after, some (.mishap cause))
      | .ok _ => (after, none)

/-- The document with entries written over those of the section. -/
def merged (home : Home) (tree : FileTree) (updates : Toml.Document) : Step Toml.Document :=
  match readDocument home tree with
  | (.error error, log) => (.error error, log)
  | (.ok document, log) =>
    match updated updates ((document.get? sectionName).getD (.table [])) with
    | .error cause => (.error (.misfit cause), log)
    | .ok value => (.ok (document.put sectionName value), log)

/-- The document without the section, so that every key has its default again. -/
def cleared (home : Home) (tree : FileTree) : Step Toml.Document :=
  match readDocument home tree with
  | (.error error, log) => (.error error, log)
  | (.ok document, log) => (.ok (document.erase sectionName), log)

/-- What an attempt to change the settings answers, the file tree after it, and the warnings on the
way. -/
structure Attempt (α : Type) where
  result : Except Error α
  tree : FileTree
  log : List Log.Entry

/-- Writes the document that a step answers. -/
def write (home : Home) (tree : FileTree) : Step Toml.Document → Attempt Unit
  | (.error error, log) => ⟨.error error, tree, log⟩
  | (.ok document, log) =>
    match writeDocument home tree document with
    | (after, none) => ⟨.ok (), after, log⟩
    | (after, some error) => ⟨.error error, after, log⟩

def save (home : Home) (tree : FileTree) (updates : Toml.Document) : Attempt Unit :=
  write home tree (merged home tree updates)

def reset (home : Home) (tree : FileTree) : Attempt Unit := write home tree (cleared home tree)

def keyOf (name : Text) : Except Error Key :=
  match Key.ofName? name with
  | some key => .ok key
  | none => .error (.unknownKey name)

def coerceByName (name raw : Text) : Except Error Toml.Value := do
  (coerce (← keyOf name) raw).mapError .refused

/-- The value in force for a key. -/
def lookup (home : Home) (tree : FileTree) (name : Text) : Step Toml.Value :=
  match keyOf name with
  | .error error => (.error error, [])
  | .ok key =>
    let (settings, log) := load home tree
    (settings.map (·.get key), log)

/-- Checks a value and stores it for one key. -/
def store (home : Home) (tree : FileTree) (name raw : Text) : Attempt Toml.Value :=
  match coerceByName name raw with
  | .error error => ⟨.error error, tree, []⟩
  | .ok value =>
    let saved := save home tree [(name, value)]
    { saved with result := saved.result.map fun () => value }

end Flowchart.Settings
