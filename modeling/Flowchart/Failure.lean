import Flowchart.Compile
import Flowchart.FileTree

/-!
What can end a piece of work on files, and reading and writing a file so that a failure names it.
-/
namespace Flowchart

inductive Failure where
  | file (error : FileTree.Error)
  /-- A path with a null character, and what asked for it if that was not reading or writing. -/
  | nullCharacter (call : Option Text)
  | encoding (error : Utf8.Error)
  | suffix (error : Path.SuffixError)
  | compile (error : CompileError)
  | fault (cause : Fault)
  deriving DecidableEq, Repr

namespace Failure

def message : Failure → Text
  | file error => error.message
  | nullCharacter none => "embedded null byte".toList
  | nullCharacter (some call) => call ++ ": embedded null character in path".toList
  | encoding error => error.message
  | suffix error => error.message
  | compile error => error.message
  | fault cause => cause.detail

/-- The failure of reading or writing a file that cannot be reached. -/
def ofObstacle (path : Path) : FileTree.Obstacle → Failure
  | .system cause => file ⟨cause, path.toText⟩
  | .nullCharacter => nullCharacter none

end Failure

namespace FileTree

def readText (tree : FileTree) (path : Path) : Except Failure Text :=
  match tree.read path with
  | .error obstacle => .error (.ofObstacle path obstacle)
  | .ok bytes => (Utf8.decodeLines bytes).mapError .encoding

/-- Writes a file, in place of one that is there. -/
def save (tree : FileTree) (path : Path) (content : Bytes) : Except Failure FileTree :=
  (tree.write path content).mapError (.ofObstacle path)

/-- What is at a path. If there is nothing, that is no failure; but a name that is too long is. -/
def look (tree : FileTree) (path : Path) : Except Failure (Option Entry) :=
  match tree.find path with
  | .ok entry => .ok (some entry)
  | .error (.system .tooLong) => .error (.file ⟨.tooLong, path.toText⟩)
  | .error _ => .ok none

end FileTree

end Flowchart
