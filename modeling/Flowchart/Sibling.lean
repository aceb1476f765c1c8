import Flowchart.Failure

/-!
Compiling a file into the file of the same name with another suffix. If anything fails, nothing is
written.
-/
namespace Flowchart.Sibling

/-- The path of the compiled file, and the tree with it. -/
def compile (fault : Option Fault) (suffix : Text) (tree : FileTree) (path : Path) :
    Except Failure (Path × FileTree) := do
  let source ← tree.readText path
  let markup ← (compileWith fault source).mapError .compile
  let target ← (path.withSuffix suffix).mapError .suffix
  let written ← tree.save target (markup ++ ['\n']).toUtf8
  return (target, written)

end Flowchart.Sibling
