import Flowchart.Path

/-!
What a command line asks for, and what the program needs of a library to read one. It is read in two
steps, because the settings are loaded as soon as the command is known, before its own words are
looked at.
-/
namespace Flowchart.Command

/-- The word that names a command. -/
inductive Verb where
  | compile
  | check
  | inspect
  | markdown
  | rename
  | template
  | url
  | config
  | watch
  deriving DecidableEq, Repr

namespace Verb

def name : Verb → Text
  | compile => "compile".toList
  | check => "check".toList
  | inspect => "inspect".toList
  | markdown => "markdown".toList
  | rename => "rename".toList
  | template => "template".toList
  | url => "url".toList
  | config => "config".toList
  | watch => "watch".toList

def all : List Verb := [compile, check, inspect, markdown, rename, template, url, config, watch]

def ofName? (word : Text) : Option Verb := all.find? (·.name == word)

theorem ofName?_name (verb : Verb) : ofName? verb.name = some verb := by
  cases verb <;> decide

end Verb

/-- A source is named by a path, or by a dash for the standard input. -/
abbrev SourceName := Text

/-- A command that answers once. The paths of documents stay as they were written, because a
separator behind a name asks for a directory. -/
inductive Task where
  | compile (source : SourceName) (output : Option Path) (fenced : Bool)
  | check (source : SourceName) (strict : Bool)
  | inspect (source : SourceName)
  | markdown (document : Text) (output : Option Path) (inPlace : Bool)
  | rename (document old new : Text) (dryRun : Bool)
  | template (output : Option Path) (force : Bool)
  | url (source : SourceName) (image : Option Path)
  | showSettings
  | changeSetting (key value : Text)
  | resetSettings
  deriving DecidableEq, Repr

def standardInput : SourceName := ['-']

namespace Task

/-- The source that a task reads. -/
def source? : Task → Option SourceName
  | compile source .. | check source _ | inspect source | url source _ => some source
  | _ => none

/-- The files that are looked at before a task begins: documents and outputs, but no source. -/
def named : Task → List Path
  | compile _ output _ | url _ output | template output _ => output.toList
  | markdown document output _ => Path.ofText document :: output.toList
  | rename document .. => [Path.ofText document]
  | check .. | inspect _ | showSettings | changeSetting .. | resetSettings => []

/-- The files that a task is given to read or to write. -/
def paths (task : Task) : List Path := (task.source?.map Path.ofText).toList ++ task.named

end Task

end Command

inductive Command where
  | task (task : Command.Task)
  | watch (path : Text) (interval : Option Float) (suffix : Option Text)

namespace Command

/-- A command line that runs no command: it asks for the version, or whoever reads it answers. -/
inductive Aside where
  | version
  | answered (status : Nat) (output : Text)
  deriving DecidableEq, Repr

structure Invocation where
  verbose : Bool
  verb : Verb
  words : List Text
  deriving DecidableEq, Repr

/-- How words are read: first the command, then what it asks for. -/
structure Grammar where
  invocation : List Text → Except Aside Invocation
  command : Verb → List Text → Except Aside Command

/-- The command of a whole command line, if it asks for one. -/
def Grammar.asked? (grammar : Grammar) (words : List Text) : Option Command :=
  (do
    let invocation ← grammar.invocation words
    grammar.command invocation.verb invocation.words).toOption

end Command

end Flowchart
