import Flowchart.Path
import Flowchart.Table
import Flowchart.Text.Utf8

/-!
File trees: directories, files, and the working directory that relative paths start from. Paths are
resolved component by component, and every component but the last has to be a directory. A path that
is too long, or has a name that is, leads nowhere, and so does one with a null character.
-/
namespace Flowchart

/-- The components from the root down. -/
abbrev Location := List Text

def Path.ofLocation (location : Location) : Path where
  root := ['/']
  parts := location

inductive Entry where
  | directory
  | file (content : Bytes)
  deriving DecidableEq, Repr

structure FileTree where
  /-- The working directory. -/
  here : Location := []
  entries : Table Location Entry := []
  deriving DecidableEq, Repr

namespace FileTree

inductive Cause where
  | missing
  | occupied
  | notDirectory
  | isDirectory
  | tooLong
  deriving DecidableEq, Repr

/-- What stands in the way of a file: the file system refuses it, or is never asked, because a null
character ends a path. -/
inductive Obstacle where
  | system (cause : Cause)
  | nullCharacter
  deriving DecidableEq, Repr

/-- What went wrong, and the path in the words of the one who asked. -/
structure Error where
  cause : Cause
  path : Text
  deriving DecidableEq, Repr

def Cause.number : Cause → Nat
  | missing => 2
  | occupied => 17
  | notDirectory => 20
  | isDirectory => 21
  | tooLong => 36

def Cause.message : Cause → Text
  | missing => "No such file or directory".toList
  | occupied => "File exists".toList
  | notDirectory => "Not a directory".toList
  | isDirectory => "Is a directory".toList
  | tooLong => "File name too long".toList

def Error.message (error : Error) : Text :=
  "[Errno ".toList ++ Text.ofNat error.cause.number ++ "] ".toList ++ error.cause.message ++
    ": ".toList ++ Text.quoted error.path

def entry? (tree : FileTree) : Location → Option Entry
  | [] => some .directory
  | location => tree.entries.get? location

/-- The start of a list in every length, up to the whole of it. -/
def lineage (parts : List Text) : List (List Text) :=
  (List.range (parts.length + 1)).map fun depth => parts.take depth

/-- Where a path starts. -/
def start (tree : FileTree) (path : Path) : Location := if path.root = [] then tree.here else []

/-- The place that a step leads to, whatever is there. A single dot is no step; it is a component
only where a name has lost its suffix. -/
def step (here : Location) (part : Text) : Location :=
  if part = ['.', '.'] then here.dropLast else if part = ['.'] then here else here ++ [part]

/-- The place of a path without a look at what the tree holds. -/
def resolve (tree : FileTree) (path : Path) : Location := path.parts.foldl step (tree.start path)

/-- The most bytes that the name of a file has, and a path as it is written. -/
def nameLimit : Nat := 255

def pathLimit : Nat := 4095

/-- One step of a path, which only a directory allows. -/
def enter (tree : FileTree) (here : Location) (part : Text) : Except Obstacle Location :=
  match tree.entry? here with
  | none => .error (.system .missing)
  | some (.file _) => .error (.system .notDirectory)
  | some .directory =>
    if nameLimit < part.toUtf8.length then .error (.system .tooLong) else .ok (step here part)

def locate (tree : FileTree) (path : Path) : Except Obstacle Location :=
  if '\x00' ∈ path.toText then .error .nullCharacter
  else if pathLimit < path.toText.toUtf8.length then .error (.system .tooLong)
  else path.parts.foldlM tree.enter (tree.start path)

/-- The places that resolving a path passes, from the root down. -/
def passed (tree : FileTree) (path : Path) : List Location :=
  lineage (tree.start path) ++ (lineage path.parts).map (·.foldl step (tree.start path))

def find (tree : FileTree) (path : Path) : Except Obstacle Entry := do
  match tree.entry? (← tree.locate path) with
  | some entry => .ok entry
  | none => .error (.system .missing)

def isFile (tree : FileTree) (path : Path) : Bool :=
  match tree.find path with
  | .ok (.file _) => true
  | _ => false

def isDirectory (tree : FileTree) (path : Path) : Bool :=
  match tree.find path with
  | .ok .directory => true
  | _ => false

def read (tree : FileTree) (path : Path) : Except Obstacle Bytes := do
  match ← tree.find path with
  | .file content => .ok content
  | .directory => .error (.system .isDirectory)

/-- The place where a file can be written: in a directory, and not on one. -/
def target (tree : FileTree) (path : Path) : Except Obstacle Location := do
  let location ← tree.locate path
  match tree.entry? location with
  | some .directory => .error (.system .isDirectory)
  | _ => .ok location

def put (tree : FileTree) (location : Location) (entry : Entry) : FileTree :=
  { tree with entries := tree.entries.put location entry }

def write (tree : FileTree) (path : Path) (content : Bytes) : Except Obstacle FileTree :=
  (tree.target path).map fun location => tree.put location (.file content)

/-- Makes a directory of a location and of everything above it that is missing. -/
def makeDirectories (tree : FileTree) (location : Location) : FileTree :=
  (lineage location).foldl
    (fun tree place => if (tree.entry? place).isSome then tree else tree.put place .directory) tree

def addFile (tree : FileTree) (location : Location) (content : Bytes) : FileTree :=
  (tree.makeDirectories location.dropLast).put location (.file content)

/-- Without a location and everything below it. -/
def remove (tree : FileTree) (location : Location) : FileTree :=
  { tree with entries := tree.entries.filter fun (place, _) => !location.isPrefixOf place }

/-- The regular files. -/
def files (tree : FileTree) : Table Location Bytes :=
  tree.entries.filterMap fun (location, entry) =>
    match entry with
    | .file content => some (location, content)
    | .directory => none

/-- What is inside a directory, at any depth. -/
def below (tree : FileTree) (location : Location) : List Location :=
  tree.entries.keys.filter fun place => location.isPrefixOf place && place != location

/-- The files of a tree that another one does not have with the same content. -/
def filesSince (tree before : FileTree) : Table Location Bytes :=
  tree.files.filter fun (location, content) => before.entry? location != some (.file content)

end FileTree

end Flowchart
