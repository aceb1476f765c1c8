import Flowchart.Command.Job
import Flowchart.Fence
import Flowchart.Lint
import Flowchart.Rename
import Flowchart.Template

/-!
Performing a task. Everything that can fail comes first; what a task leaves to be written is a
single change of the file tree, together with what the console shows once that is done.
-/
namespace Flowchart.Command

/-- A change of one file. -/
inductive Change where
  | file (path : Path) (content : Bytes)
  | settings (home : Settings.Home) (document : Toml.Document)

/-- The file tree after a change, and what stopped the change on the way. -/
def Change.apply (tree : FileTree) : Change → FileTree × Option Crash
  | file path content =>
    match tree.save path content with
    | .ok after => (after, none)
    | .error failure => (tree, some (.failure failure))
  | settings home document =>
    let (after, error) := Settings.writeDocument home tree document
    (after, error.map .settings)

structure Saving where
  change : Change
  /-- Shown after the change. -/
  markup : Text
  /-- Shown if the change fails for a cause that is no end of the program. -/
  excuse? : Crash → Option Text := fun _ => none

namespace Saving

def done (markup : Text) : Text := Markup.tick ++ [' '] ++ markup

def pathMarkup (console : Console) (path : Path) : Text :=
  Markup.cyan (console.escape path.toText)

def text (console : Console) (path : Path) (content : Text) : Saving where
  change := .file path content.toUtf8
  markup := done ("Wrote ".toList ++ pathMarkup console path)

end Saving

/-- A task that leaves nothing to be written. -/
def nothing : Job (Option Saving) := return none

namespace Task

open Job

def fenced (markup : Text) : Text :=
  let fence := List.replicate 3 Fence.backtick
  fence ++ "mermaid\n".toList ++ markup ++ ['\n'] ++ fence

def performCompile (surroundings : Surroundings) (tree : FileTree) (name : Text)
    (output : Option Path) (inFence : Bool) : Job (Option Saving) := do
  let markup ← compiled surroundings (← source surroundings tree name)
  let content := (if inFence then fenced markup else markup) ++ ['\n']
  match output with
  | none => write content; nothing
  | some path => return some (.text surroundings.console path content)

def diagnosticRow (console : Console) (diagnostic : Lint.Diagnostic) : List Text :=
  let problem := diagnostic.problem
  let severity := match problem.severity with
    | .error => Markup.red problem.severity.name
    | .warning => Markup.yellow problem.severity.name
  [Text.ofNat diagnostic.line, severity, problem.code, console.escape problem.message]

def performCheck (surroundings : Surroundings) (tree : FileTree) (name : Text) (strict : Bool) :
    Job (Option Saving) := do
  let diagnostics := lint (← source surroundings tree name)
  if diagnostics.isEmpty then
    line surroundings.console (Markup.tick ++ " No problems found".toList)
    nothing
  else
    print surroundings.console (.table (Text.ofNat diagnostics.length ++ " problem(s)".toList)
      ["Line".toList, "Severity".toList, "Code".toList, "Message".toList]
      (diagnostics.map (diagnosticRow surroundings.console)))
    if strict || diagnostics.any (·.problem.severity == .error) then exit refused
    nothing

def overview (console : Console) (diagram : Diagram) : Text :=
  "Title:     ".toList ++ console.escape (diagram.title.getD ['-']) ++
    "\nDirection: ".toList ++ diagram.direction ++
    "\nNodes:     ".toList ++ Text.ofNat diagram.nodes.length ++
    "\nEdges:     ".toList ++ Text.ofNat diagram.edges.length ++
    "\nGroups:    ".toList ++ Text.ofNat diagram.groups.length

def nodeRow (console : Console) (node : Node) : List Text :=
  [node.id, console.escape node.label, node.shape.getD [], node.color.getD [], node.icon.getD []]

def groupRow (console : Console) (group : Group) : List Text :=
  [group.id, console.escape group.label, ", ".toList.intercalate group.members,
    group.color.getD []]

def edgeRow (console : Console) (edge : Edge) : List Text :=
  [edge.source, edge.target, console.escape (edge.label.getD [])]

/-- A table, unless it has no rows. -/
def printRows (console : Console) (title : Text) (columns : List Text) (rows : List (List Text)) :
    Job Unit :=
  if rows.isEmpty then return () else print console (.table title columns rows)

def performInspect (surroundings : Surroundings) (tree : FileTree) (name : Text) :
    Job (Option Saving) := do
  let console := surroundings.console
  let source ← source surroundings tree name
  note (Log.ofReading source)
  let diagram := Diagram.ofSource source
  print console (.panel "Diagram".toList (overview console diagram))
  printRows console "Nodes".toList
    ["ID".toList, "Label".toList, "Shape".toList, "Color".toList, "Icon".toList]
    (diagram.nodes.values.map (nodeRow console))
  printRows console "Groups".toList
    ["ID".toList, "Label".toList, "Members".toList, "Color".toList]
    (diagram.groups.map (groupRow console))
  printRows console "Relationships".toList ["From".toList, "To".toList, "Label".toList]
    (diagram.edges.map (edgeRow console))
  nothing

def performMarkdown (surroundings : Surroundings) (tree : FileTree) (name : Text)
    (output : Option Path) (inPlace : Bool) : Job (Option Saving) := do
  let path ← document tree name
  if output.isSome && inPlace then
    fail surroundings.console "Use either --output or --in-place, not both.".toList
  let converted ← Markdown.convert (compiled surroundings) (← orCrash (tree.readText path))
  match if inPlace then some path else output with
  | none => write converted; nothing
  | some target => return some (.text surroundings.console target converted)

def performRename (surroundings : Surroundings) (tree : FileTree) (name old new : Text)
    (dryRun : Bool) : Job (Option Saving) := do
  let console := surroundings.console
  let path ← document tree name
  let before ← orCrash (tree.readText path)
  let after := Flowchart.rename before old new
  if after = before then
    line console
      (Markup.yellow ("No occurrences of '".toList ++ console.escape old ++ "' changed.".toList))
    nothing
  else if dryRun then
    write after
    nothing
  else
    return some {
      change := .file path after.toUtf8
      markup := Saving.done ("Renamed '".toList ++ console.escape old ++ "' to '".toList ++
        console.escape new ++ "' in ".toList ++ Saving.pathMarkup console path) }

def performTemplate (surroundings : Surroundings) (tree : FileTree) (output : Option Path)
    (force : Bool) : Job (Option Saving) := do
  let console := surroundings.console
  match output with
  | none => write Flowchart.template; nothing
  | some path =>
    if (← orCrash (tree.look path)).isSome && !force then
      fail console (path.toText ++ " already exists (use --force to overwrite)".toList)
    return some (.text console path Flowchart.template)

def performUrl (surroundings : Surroundings) (tree : FileTree) (name : Text)
    (image : Option Path) : Job (Option Saving) := do
  let settings ← settings surroundings tree
  let markup ← compiled surroundings (← source surroundings tree name)
  match image with
  | none =>
    write (Ink.address markup "png".toList settings.inkTheme settings.inkBackground ++ ['\n'])
    nothing
  | some path =>
    let request := Ink.request markup settings.inkTheme settings.inkBackground
    tell (·.request request)
    match Ink.receive (surroundings.fetch request) with
    | .error fault => crash (.failure (.fault fault))
    | .ok (bytes?, log) =>
      note log
      match bytes? with
      | none => fail surroundings.console "Could not render the diagram via mermaid.ink".toList
      | some bytes =>
        return some {
          change := .file path bytes
          markup := Saving.done ("Saved ".toList ++ Saving.pathMarkup surroundings.console path ++
            " (".toList ++ Text.ofNat bytes.length ++ " bytes)".toList) }

def performShowSettings (surroundings : Surroundings) (tree : FileTree) : Job (Option Saving) := do
  let settings ← settings surroundings tree
  let standard : Settings := {}
  let console := surroundings.console
  print console (.table
    ("Config (".toList ++ console.escape surroundings.home.file.toText ++ [')'])
    ["Key".toList, "Value".toList, "Default".toList]
    (Settings.Key.all.map fun key =>
      [key.name, (settings.get key).plain, (standard.get key).plain]))
  nothing

/-- What is shown if a failure to store a value is about the key or about the value. -/
def rejection? (console : Console) (key : Text) (error : Settings.Error) : Option Text :=
  let unknown := Markup.cross ++ " Unknown setting '".toList ++ console.escape key ++
    "'. Known settings: ".toList ++ ", ".toList.intercalate (Settings.Key.all.map (·.name))
  let invalid := Markup.cross ++ " Invalid value for ".toList ++ console.escape key ++
    ": ".toList ++ console.escape error.message
  match error with
  | .unknownKey _ | .mishap ⟨_, .key⟩ => some unknown
  | .refused _ | .misfit (.wrongLength ..) | .mishap ⟨_, .value⟩ => some invalid
  | .failure (.encoding _) | .failure (.nullCharacter _) => some invalid
  | .misfit _ | .failure _ | .mishap ⟨_, .neither⟩ => none

/-- A value is not stored. A failure that is about neither the key nor the value ends the program.
-/
def rejectSetting (console : Console) (key : Text) (error : Settings.Error) :
    Job (Option Saving) := do
  match rejection? console key error with
  | some markup =>
    line console markup
    exit refused
  | none => crash (.settings error)

def performChangeSetting (surroundings : Surroundings) (tree : FileTree) (key value : Text) :
    Job (Option Saving) := do
  let console := surroundings.console
  match Settings.coerceByName key value with
  | .error error => rejectSetting console key error
  | .ok stored =>
    match ← noted (Settings.merged surroundings.home tree [(key, stored)]) with
    | .error error => rejectSetting console key error
    | .ok document =>
      return some {
        change := .settings surroundings.home document
        markup := Saving.done (key ++ " = ".toList ++ console.escape stored.plain)
        excuse? := fun
          | .settings error => rejection? console key error
          | .failure _ => none }

def performResetSettings (surroundings : Surroundings) (tree : FileTree) :
    Job (Option Saving) := do
  match ← noted (Settings.cleared surroundings.home tree) with
  | .error error => crash (.settings error)
  | .ok document =>
    return some {
      change := .settings surroundings.home document
      markup := Saving.done "Configuration reset to defaults".toList }

def perform (surroundings : Surroundings) (tree : FileTree) : Task → Job (Option Saving)
  | compile source output inFence => performCompile surroundings tree source output inFence
  | check source strict => performCheck surroundings tree source strict
  | inspect source => performInspect surroundings tree source
  | markdown document output inPlace => performMarkdown surroundings tree document output inPlace
  | rename document old new dryRun => performRename surroundings tree document old new dryRun
  | template output force => performTemplate surroundings tree output force
  | url source image => performUrl surroundings tree source image
  | showSettings => performShowSettings surroundings tree
  | changeSetting key value => performChangeSetting surroundings tree key value
  | resetSettings => performResetSettings surroundings tree

end Task

end Flowchart.Command
