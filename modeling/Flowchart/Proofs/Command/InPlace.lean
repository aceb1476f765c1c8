import Flowchart.Command.Invocation
import Flowchart.Console.Tagged
import Flowchart.Proofs.Command.Job
import Flowchart.Proofs.Fence
import Flowchart.Proofs.FileTree
import Flowchart.Proofs.Rename
import Flowchart.Toml.Flat

/-!
Commands that write back the file they read. What they keep of it they keep line by line and
character by character. The bytes are those of the text as it was read, so the only thing that a
file loses is another spelling of its line breaks than the line feed.
-/
namespace Flowchart.Command

variable {surroundings : Surroundings} {tree : FileTree} {words : List Text}

/-- The file that a task reads and writes back. -/
def Task.edited? : Task → Option Path
  | markdown document _ true | rename document _ _ false => some (Path.ofText document)
  | _ => none

/-- What a task makes of the text of its file: a document has its blocks compiled, and where it has
none it stays; a source has a label renamed. -/
inductive Task.Edits (fault : Option Fault) : Task → Text → Text → Prop
  | markdown {name : Text} {output : Option Path} {before : Text} {lines : List Text}
    (edited : Edited (Segment.Compiles (compileWith fault · = .ok ·)) (Text.lines before) lines)
    (free : Markdown.sources before = [] → lines = Text.lines before) :
    Edits fault (.markdown name output true) before (Text.unlines lines)
  | rename {name old new before after : Text} (relabelled : Relabelled old new before after) :
    Edits fault (.rename name old new false) before after

/-- What a task leaves to be written when it has read a file: the edited text in its place, or
nothing if the text is as it was. -/
def Task.Rewrites (surroundings : Surroundings) (tree : FileTree) (task : Task) (path : Path)
    (saving? : Option Saving) : Prop :=
  ∃ before after, tree.readText path = .ok before ∧
    task.Edits surroundings.fault before after ∧
    (saving? = none ∧ after = before ∨
      ∃ markup, saving? = some { change := .file path (Text.toUtf8 after), markup })

namespace Task

open Job

theorem yields_segment (segment : Segment) :
    (segment.convert (compiled surroundings)).Yields
      (Segment.Stands (compileWith surroundings.fault · = .ok ·) segment) := by
  cases segment with
  | line text => exact yields_pure (.line text)
  | block fence body =>
    exact (yields_compiled _).bind fun markup given => yields_pure (.block given)

theorem yields_convert (name : Text) (output : Option Path) (before : Text) :
    (Markdown.convert (compiled surroundings) before).Yields
      ((markdown name output true).Edits surroundings.fault before) := by
  refine (yields_mapM yields_segment _).bind fun pieces standing => yields_pure ?_
  have divides := Segment.divides_ofLines (Text.lines before)
  exact .markdown (Segment.edited_of_stands divides standing)
    fun free => Segment.flatten_of_no_source divides free standing

/-- Converting a document and leaving it to be written in its place. -/
def convertInPlace (surroundings : Surroundings) (tree : FileTree) (path : Path) :
    Job (Option Saving) := do
  let converted ← Markdown.convert (compiled surroundings) (← orCrash (tree.readText path))
  return some (.text surroundings.console path converted)

theorem rewrites_markdown (name : Text) (output : Option Path) :
    (performMarkdown surroundings tree name output true).Yields
      ((markdown name output true).Rewrites surroundings tree (Path.ofText name)) := by
  refine (yields_document tree name).bind fun path same => ?_
  subst same
  have converting : (convertInPlace surroundings tree (Path.ofText name)).Yields
      ((markdown name output true).Rewrites surroundings tree (Path.ofText name)) := by
    refine (yields_orCrash _).bind fun before read => ?_
    refine (yields_convert name output before).bind fun after edits => yields_pure ?_
    exact ⟨before, after, read, edits, .inr ⟨_, rfl⟩⟩
  cases output with
  | none => exact converting
  | some path => exact yields_bind _ fun _ => converting

theorem rewrites_rename (name old new : Text) :
    (performRename surroundings tree name old new false).Yields
      ((rename name old new false).Rewrites surroundings tree (Path.ofText name)) := by
  refine (yields_document tree name).bind fun path same => ?_
  subst same
  refine (yields_orCrash _).bind fun before read => ?_
  have edits := relabelled_rename before old new
  dsimp only
  split
  · rename_i unchanged
    exact yields_bind _ fun _ => yields_pure ⟨before, _, read, .rename edits, .inl ⟨rfl, unchanged⟩⟩
  · exact yields_pure ⟨before, _, read, .rename edits, .inr ⟨_, rfl⟩⟩

theorem edited?_eq_some {task : Task} {path : Path} (inPlace : task.edited? = some path) :
    ∃ name, path = Path.ofText name ∧
      ((∃ output, task = markdown name output true) ∨
        ∃ old new, task = rename name old new false) := by
  rw [edited?.eq_def] at inPlace
  split at inPlace
  · rename_i name output
    exact ⟨name, (Option.some.inj inPlace).symm, .inl ⟨output, rfl⟩⟩
  · rename_i name old new
    exact ⟨name, (Option.some.inj inPlace).symm, .inr ⟨old, new, rfl⟩⟩
  · contradiction

/-- A task that edits a file in place leaves the edited text to be written. -/
theorem rewrites_perform {task : Task} {path : Path} (inPlace : task.edited? = some path) :
    (task.perform surroundings tree).Yields (task.Rewrites surroundings tree path) := by
  obtain ⟨name, rfl, ⟨output, rfl⟩ | ⟨old, new, rfl⟩⟩ := edited?_eq_some inPlace
  · exact rewrites_markdown name output
  · exact rewrites_rename name old new

theorem fails_convert (before : Text) :
    (Markdown.convert (compiled surroundings) before).Fails := by
  refine (fails_mapM ?_ _).bind fun _ => fails_pure _
  intro segment
  cases segment with
  | line text => exact fails_pure _
  | block fence body => exact (fails_compiled _).bind fun _ => fails_pure _

theorem fails_perform {task : Task} {path : Path} (inPlace : task.edited? = some path) :
    (task.perform surroundings tree).Fails := by
  obtain ⟨name, rfl, ⟨output, rfl⟩ | ⟨old, new, rfl⟩⟩ := edited?_eq_some inPlace
  · refine (fails_document tree name).bind fun path => ?_
    have converting : (convertInPlace surroundings tree path).Fails :=
      (fails_orCrash _).bind fun before => (fails_convert before).bind fun _ => fails_pure _
    cases output with
    | none => exact converting
    | some path => exact (fails_fail _).bind fun _ => converting
  · refine (fails_document tree name).bind fun path => (fails_orCrash _).bind fun before => ?_
    dsimp only
    split
    · exact (fails_print _).bind fun _ => fails_pure _
    · exact fails_pure _

end Task

/-- What a run that edits a file in place ends with: all as it was and no good end; or the text of
the file was read with its line breaks made line feeds, which changes nothing in a text without
carriage returns, and the edited text is in its place. It is not written if nothing was edited. -/
def Outcome.Edits (surroundings : Surroundings) (tree : FileTree) (task : Task) (path : Path)
    (outcome : Outcome) : Prop :=
  outcome.status ≠ 0 ∧ outcome.tree = tree ∨
    ∃ text before after,
      tree.content? (tree.resolve path) = some (Text.toUtf8 text) ∧
      before = Text.normalizeBreaks text ∧ (before = text ↔ '\r' ∉ text) ∧
      task.Edits surroundings.fault before after ∧
      (outcome.tree = tree ∧ after = before ∨
        outcome.tree = tree.put (tree.resolve path) (.file (Text.toUtf8 after)))

theorem Outcome.edits_ofSaving {task : Task} {path : Path} {saving? : Option Saving}
    (rewrites : task.Rewrites surroundings tree path saving?) (report : Report) :
    (ofSaving surroundings.console report tree saving?).Edits surroundings tree task path := by
  obtain ⟨before, after, read, edits, left⟩ := rewrites
  obtain ⟨text, held, same⟩ := FileTree.content?_of_readText read
  have breaks : before = text ↔ '\r' ∉ text := by
    rw [same, Text.normalizeBreaks_eq_self]
  rcases left with ⟨rfl, unchanged⟩ | ⟨markup, rfl⟩
  · exact .inr ⟨text, before, after, held, same, breaks, edits, .inl ⟨rfl, unchanged⟩⟩
  · rw [ofSaving, Change.apply]
    cases saved : tree.save path (Text.toUtf8 after) with
    | error failure => exact .inl ⟨Nat.one_ne_zero, rfl⟩
    | ok saved? =>
      obtain ⟨location, located, -, put⟩ := FileTree.save_eq_ok saved
      refine .inr ⟨text, before, after, held, same, breaks, edits, .inr ?_⟩
      rw [FileTree.resolve_of_locate located]
      exact (Outcome.tree_told ..).trans put

/-- Editing a file in place keeps every line of it outside fenced blocks, or every character outside
the occurrences of the label that is renamed, up to the spelling of line breaks. -/
theorem run_edits {surroundings : Surroundings} {tree : FileTree} {words : List Text} {task : Task}
    {path : Path} (asked : surroundings.grammar.asked? words = some (.task task))
    (inPlace : task.edited? = some path) :
    ∃ outcome, run surroundings tree words = .ended outcome ∧
      outcome.Edits surroundings tree task path := by
  -- Of tasks that do not edit this file nothing is said, and none of them was asked for.
  have prepared : (prepare surroundings tree words).Yields fun rest =>
      ∃ command, surroundings.grammar.asked? words = some command ∧ rest.Of
        (fun other saving? => other.edited? = some path →
          other.Rewrites surroundings tree path saving?) command :=
    yields_prepare fun _ before saving? after ran edited =>
      Task.rewrites_perform edited before saving? after ran
  rw [run]
  split
  · rename_i stop report ran
    refine ⟨_, rfl, .inl ?_⟩
    have bad := fails_prepare asked (Task.fails_perform inPlace) _ _ _ ran
    cases stop with
    | exited status => exact ⟨fun well => bad (congrArg Stop.exited well), rfl⟩
    | crashed cause => exact ⟨Nat.one_ne_zero, rfl⟩
  · rename_i saving? report ran
    obtain ⟨command, line, rest⟩ := prepared _ _ _ ran
    rw [asked] at line
    cases line
    cases rest with
    | save left => exact ⟨_, rfl, Outcome.edits_ofSaving (left inPlace) report⟩
  · rename_i watch report ran
    obtain ⟨command, line, rest⟩ := prepared _ _ _ ran
    rw [asked] at line
    cases line
    cases rest

theorem run_edits_of_document :
    let surroundings : Surroundings :=
      { home := ⟨.ofText "home".toList, Toml.flat⟩, grammar := .switches, console := .tagged }
    let tree : FileTree :=
      { entries := [(["notes.md".toList], .file (Text.toUtf8 "text\r\n".toList))] }
    ∃ outcome,
      run surroundings tree (["markdown", "notes.md", "--in-place"].map String.toList) =
        .ended outcome ∧
      outcome.Edits surroundings tree (.markdown "notes.md".toList none true)
        (.ofText "notes.md".toList) :=
  run_edits rfl rfl

/-- A carriage return is lost in a document without any block. -/
example :
    let surroundings : Surroundings :=
      { home := ⟨.ofText "home".toList, Toml.flat⟩, grammar := .switches, console := .tagged }
    (match run surroundings
        { entries := [(["notes.md".toList], .file (Text.toUtf8 "text\r\n".toList))] }
        (["markdown", "notes.md", "--in-place"].map String.toList) with
      | .ended outcome => outcome.tree.content? ["notes.md".toList]
      | .watching .. => none) = some (Text.toUtf8 "text\n".toList) := by
  decide +kernel

end Flowchart.Command
