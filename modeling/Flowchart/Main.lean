import Flowchart.Command.Invocation
import Flowchart.Command.Run
import Flowchart.Console.Tagged
import Flowchart.Toml.Flat

/-!
The program: a file tree is taken from what the command line names, the command line is run on it,
and the files that differ afterwards are written. The image service is not reached from here.
-/
namespace Flowchart.Main

def nameOf (location : Location) : String := String.ofList (Path.ofLocation location).toText

/-- Takes what is at a place into the tree. -/
def look (tree : FileTree) (location : Location) : IO FileTree := do
  try
    let path ← IO.FS.realPath (nameOf location)
    if ← path.isDir then return tree.put location .directory
    let content ← IO.FS.readBinFile path
    return tree.put location (.file content.toList)
  catch _ => return tree.remove location

def lookAll (tree : FileTree) (locations : List Location) : IO FileTree :=
  locations.foldlM look tree

partial def lookBelow (tree : FileTree) (location : Location) : IO FileTree := do
  let tree ← look tree location
  if tree.entry? location != some .directory then return tree
  let path ← IO.FS.realPath (nameOf location)
  let mut tree := tree
  for entry in ← path.readDir do
    tree ← lookBelow tree (location ++ [entry.fileName.toList])
  return tree

def say (report : Report) : IO Unit := do
  (← IO.getStdout).putStr (String.ofList report.output)
  for block in report.printed do IO.println (String.ofList block.plain)
  for entry in report.log do IO.eprintln (String.ofList entry.render)
  (← IO.getStdout).flush

def writeSince (tree before : FileTree) : IO Unit := do
  for (location, content) in tree.filesSince before do
    IO.FS.createDirAll (nameOf location.dropLast)
    IO.FS.writeBinFile (nameOf location) (ByteArray.mk content.toArray)

def finish (before : FileTree) (outcome : Command.Outcome) : IO UInt32 := do
  say outcome.report
  writeSince outcome.tree before
  if let some cause := outcome.crash then IO.eprintln (String.ofList cause.message)
  if outcome.status = Command.misused then IO.eprint (String.ofList Command.usage)
  return outcome.status.toUInt32

/-- Compares the watched place with the tree after every pause, until the program is interrupted. -/
partial def watchOn (watch : Watch) (session : Watch.Session) : IO UInt32 := do
  IO.sleep (watch.pause * 1000).toUInt32
  let now ← IO.monoMsNow
  let tree ← lookAll { here := session.tree.here } (FileTree.lineage watch.location)
  let tree ← lookBelow tree watch.location
  let event (location : Location) : FileEvent :=
    { isDirectory := false, source := (Path.ofLocation location).toText }
  let changes := (tree.filesSince session.tree).keys.map fun place =>
    (Watch.Change.modified, event place)
  let session := { session with tree, report := session.report.fresh }
  match session.tick watch (now.toFloat / 1000) changes with
  | (after, some failure) =>
    finish tree (.crashed (.failure failure) after.report after.tree)
  | (after, none) =>
    say after.report
    writeSince after.tree tree
    watchOn watch after

def homeDirectory : IO Path := do
  match ← IO.getEnv "FLOWDSL_HOME" with
  | some name => return Path.ofText name.toList
  | none =>
    let user := (← IO.getEnv "HOME").getD "."
    return (Path.ofText user.toList).join ".flowdsl".toList

def readInput : Option Command → IO Bytes
  | some (.task task) => do
    if task.source? = some Command.standardInput then
      return (← (← IO.getStdin).readBinToEnd).toList
    else return []
  | _ => return []

/-- The part of the file system that a command depends on. -/
def lookFor (empty : FileTree) (home : Settings.Home) (asked : Option Command) : IO FileTree := do
  let tree ← lookAll empty (empty.passed home.file)
  match asked with
  | none => return tree
  | some (.task task) => lookAll tree (task.paths.flatMap tree.passed)
  | some (.watch name _ _) =>
    let path := Path.ofText name
    lookBelow (← lookAll tree (tree.passed path)) (tree.resolve path)

def start (words : List Text) : IO UInt32 := do
  let asked := Command.Grammar.switches.asked? words
  let here := (Path.ofText (← IO.currentDir).toString.toList).parts
  let home : Settings.Home := ⟨← homeDirectory, Toml.flat⟩
  let tree ← lookFor { here } home asked
  let input ← readInput asked
  let surroundings : Command.Surroundings :=
    { home, grammar := .switches, console := .tagged, input }
  match Command.run surroundings tree words with
  | .ended outcome => finish tree outcome
  | .watching watch session =>
    say session.report
    writeSince session.tree tree
    watchOn watch session

end Flowchart.Main

def main (args : List String) : IO UInt32 := Flowchart.Main.start (args.map String.toList)
