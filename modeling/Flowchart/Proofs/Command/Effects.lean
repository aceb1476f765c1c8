import Flowchart.Command.Invocation
import Flowchart.Console.Tagged
import Flowchart.Proofs.Command.Job
import Flowchart.Proofs.Settings.Write
import Flowchart.Toml.Flat

/-!
What a run does to the file tree. A job cannot change it, so all that matters is what a task leaves
to be written: nothing, or one change of the target of the task. A change that fails is not made at
all. Nothing but a line on the console comes after it, and that line is all that can still fail.
-/
namespace Flowchart.Command

variable {surroundings : Surroundings} {tree after : FileTree} {words : List Text}

/-! ### Targets -/

/-- The file that a task is asked to write. -/
def Task.target? (home : Settings.Home) : Task → Option Path
  | compile _ output _ | template output _ => output
  | markdown document output inPlace => if inPlace then some (Path.ofText document) else output
  | rename document _ _ dryRun => if dryRun then none else some (Path.ofText document)
  | url _ image => image
  | changeSetting .. | resetSettings => some home.file
  | check .. | inspect _ | showSettings => none

/-- The document that a task makes of the one in the settings file, to be written in its place. -/
def Task.document? (home : Settings.Home) (tree : FileTree) : Task → Option Toml.Document
  | changeSetting key value => Settings.toStore? home tree key value
  | resetSettings => Settings.toClear? home tree
  | _ => none

/-- The changes that a task can ask for. -/
inductive Task.Asks (home : Settings.Home) (tree : FileTree) (task : Task) : Change → Prop
  | file {path : Path} (target : task.target? home = some path) (content : Bytes) :
    Asks home tree task (.file path content)
  | settings {document : Toml.Document} (target : task.target? home = some home.file)
    (made : task.document? home tree = some document) :
    Asks home tree task (.settings home document)

/-- Nothing is left to be written, or a change that the task can ask for. -/
def Task.Leaves (home : Settings.Home) (tree : FileTree) (task : Task) (saving? : Option Saving) :
    Prop :=
  ∀ saving ∈ saving?, task.Asks home tree saving.change

namespace Task

variable {home : Settings.Home} {task : Task}

theorem leaves_none : task.Leaves home tree none := nofun

theorem leaves_some {saving : Saving} (asks : task.Asks home tree saving.change) :
    task.Leaves home tree (some saving) := by
  rintro _ ⟨⟩
  exact asks

theorem leaves_file {path : Path} {content : Bytes} {markup : Text}
    (target : task.target? home = some path) :
    task.Leaves home tree (some { change := .file path content, markup }) :=
  leaves_some (.file target content)

theorem yields_nothing : nothing.Yields (task.Leaves home tree) := Job.yields_pure leaves_none

open Job

theorem yields_compile (name : Text) (output : Option Path) (inFence : Bool) :
    (performCompile surroundings tree name output inFence).Yields
      ((compile name output inFence).Leaves surroundings.home tree) := by
  refine yields_bind _ fun source => yields_bind _ fun markup => ?_
  cases output with
  | none => exact yields_bind _ fun _ => yields_nothing
  | some path => exact yields_pure (leaves_file rfl)

theorem yields_check (name : Text) (strict : Bool) :
    (performCheck surroundings tree name strict).Yields
      ((check name strict).Leaves surroundings.home tree) := by
  refine yields_bind _ fun source => ?_
  dsimp only
  split
  · exact yields_bind _ fun _ => yields_nothing
  · refine yields_bind _ fun _ => ?_
    split
    · exact yields_bind _ fun _ => yields_nothing
    · exact yields_nothing

theorem yields_inspect (name : Text) :
    (performInspect surroundings tree name).Yields
      ((inspect name).Leaves surroundings.home tree) :=
  yields_bind _ fun _ => yields_bind _ fun _ => yields_bind _ fun _ => yields_bind _ fun _ =>
    yields_bind _ fun _ => yields_bind _ fun _ => yields_nothing

theorem yields_markdown (name : Text) (output : Option Path) (inPlace : Bool) :
    (performMarkdown surroundings tree name output inPlace).Yields
      ((markdown name output inPlace).Leaves surroundings.home tree) := by
  refine (yields_document tree name).bind fun path same => ?_
  subst same
  dsimp only
  split
  case' isTrue => refine yields_bind _ fun _ => ?_
  all_goals
    refine yields_bind _ fun before => yields_bind _ fun converted => ?_
    split
    · exact yields_bind _ fun _ => yields_nothing
    · rename_i target found
      exact yields_pure (leaves_file found)

theorem yields_rename (name old new : Text) (dryRun : Bool) :
    (performRename surroundings tree name old new dryRun).Yields
      ((rename name old new dryRun).Leaves surroundings.home tree) := by
  refine (yields_document tree name).bind fun path same => ?_
  subst same
  refine yields_bind _ fun before => ?_
  dsimp only
  split
  · exact yields_bind _ fun _ => yields_nothing
  split
  · exact yields_bind _ fun _ => yields_nothing
  · rename_i real
    exact yields_pure (leaves_file (if_neg real))

theorem yields_template (output : Option Path) (force : Bool) :
    (performTemplate surroundings tree output force).Yields
      ((template output force).Leaves surroundings.home tree) := by
  cases output with
  | none => exact yields_bind _ fun _ => yields_nothing
  | some path =>
    refine yields_bind _ fun found => ?_
    dsimp only
    split
    · exact yields_bind _ fun _ => yields_pure (leaves_file rfl)
    · exact yields_pure (leaves_file rfl)

theorem yields_url (name : Text) (image : Option Path) :
    (performUrl surroundings tree name image).Yields
      ((url name image).Leaves surroundings.home tree) := by
  refine yields_bind _ fun settings => yields_bind _ fun source => yields_bind _ fun markup => ?_
  cases image with
  | none => exact yields_bind _ fun _ => yields_nothing
  | some path =>
    refine yields_bind _ fun _ => ?_
    split
    · exact yields_crash _
    · refine yields_bind _ fun _ => ?_
      split
      · exact yields_fail _
      · exact yields_pure (leaves_file rfl)

theorem yields_showSettings :
    (performShowSettings surroundings tree).Yields
      (showSettings.Leaves surroundings.home tree) :=
  yields_bind _ fun _ => yields_bind _ fun _ => yields_nothing

theorem yields_rejectSetting (console : Console) (key : Text) (error : Settings.Error)
    {P : Option Saving → Prop} : (rejectSetting console key error).Yields P := by
  rw [rejectSetting]
  split
  · exact yields_bind _ fun _ => yields_exit refused
  · exact yields_crash _

theorem yields_changeSetting (key value : Text) :
    (performChangeSetting surroundings tree key value).Yields
      ((changeSetting key value).Leaves surroundings.home tree) := by
  rw [performChangeSetting]
  split
  · exact yields_rejectSetting _ key _
  · rename_i stored coerced
    refine (yields_noted _).bind fun result same => ?_
    subst same
    split
    · exact yields_rejectSetting _ key _
    · rename_i document made
      refine yields_pure (leaves_some (.settings rfl ?_))
      rw [document?, Settings.toStore?, coerced]
      exact congrArg Except.toOption made

theorem yields_resetSettings :
    (performResetSettings surroundings tree).Yields
      (resetSettings.Leaves surroundings.home tree) := by
  refine (yields_noted _).bind fun result same => ?_
  subst same
  split
  · exact yields_crash _
  · rename_i document made
    exact yields_pure (leaves_some (.settings rfl (congrArg Except.toOption made)))

/-- Every task stops or leaves at most a change of its target. -/
theorem yields_perform (task : Task) :
    (task.perform surroundings tree).Yields (task.Leaves surroundings.home tree) := by
  cases task with
  | compile name output inFence => exact yields_compile name output inFence
  | check name strict => exact yields_check name strict
  | inspect name => exact yields_inspect name
  | markdown name output inPlace => exact yields_markdown name output inPlace
  | rename name old new dryRun => exact yields_rename name old new dryRun
  | template output force => exact yields_template output force
  | url name image => exact yields_url name image
  | showSettings => exact yields_showSettings
  | changeSetting key value => exact yields_changeSetting key value
  | resetSettings => exact yields_resetSettings

end Task

/-! ### Runs -/

/-- The file that a change is made to. -/
def Change.path : Change → Path
  | file path _ => path
  | settings home _ => home.file

/-- Whether what has to be written has a text. -/
def Change.Writable : Change → Prop
  | file _ _ => True
  | settings home document => ∃ text, home.library.write document = .ok text

theorem Change.content?_apply {change : Change} (done : change.apply tree = (after, none))
    {place : Location} (apart : place ≠ tree.resolve change.path) :
    after.content? place = tree.content? place := by
  cases change with
  | file path content =>
    rw [apply] at done
    split at done
    · rename_i saved
      exact FileTree.content?_save ((Prod.mk.inj done).1 ▸ saved) apart
    · exact absurd (congrArg Prod.snd done) nofun
  | settings home document =>
    obtain ⟨same, free⟩ := Prod.mk.inj done
    exact Settings.content?_writeDocument
      (Prod.ext same (Option.map_eq_none_iff.mp free)) apart

/-- A change that fails is not made. -/
theorem Change.apply_eq_stopped {change : Change} {crash : Crash} (writable : change.Writable)
    (stopped : change.apply tree = (after, some crash)) : after = tree := by
  cases change with
  | file path content =>
    rw [apply] at stopped
    split at stopped
    · exact absurd (congrArg Prod.snd stopped) nofun
    · exact (Prod.mk.inj stopped).1.symm
  | settings home document =>
    obtain ⟨text, written⟩ := writable
    obtain ⟨same, failed⟩ := Prod.mk.inj stopped
    obtain ⟨error, found, -⟩ := Option.map_eq_some_iff.mp failed
    exact Settings.writeDocument_eq_stopped written (Prod.ext same found)

theorem Task.Asks.path {home : Settings.Home} {task : Task} {change : Change}
    (asks : task.Asks home tree change) : task.target? home = some change.path := by
  cases asks with
  | file target => exact target
  | settings target => exact target

theorem Task.Asks.writable {home : Settings.Home} {task : Task} {change : Change}
    (asks : task.Asks home tree change)
    (dumps : ∀ document, task.document? home tree = some document →
      ∃ text, home.library.write document = .ok text) : change.Writable := by
  cases asks with
  | file => exact trivial
  | settings _ made => exact dumps _ made

/-- A task has made the change that it asks for, but the console refuses the line that says so, and
that ends the run. -/
structure Task.Unsaid (surroundings : Surroundings) (tree : FileTree) (task : Task)
    (outcome : Outcome) (saving : Saving) (refusal : Fault) : Prop where
  asks : task.Asks surroundings.home tree saving.change
  made : saving.change.apply tree = (outcome.tree, none)
  refused : surroundings.console.refusal? (.line saving.markup) = some refusal
  crash : outcome.crash = some (.failure (.fault refusal))

/-- An outcome with a file tree that differs from the one before in the target of the command line
at most. If the run did not end well, it does not differ at all, unless all was done and only the
line that says so was refused. -/
structure Outcome.Spares (surroundings : Surroundings) (tree : FileTree) (words : List Text)
    (outcome : Outcome) : Prop where
  failed : outcome.status ≠ 0 → outcome.tree = tree ∨
    ∃ task saving refusal, surroundings.grammar.asked? words = some (.task task) ∧
      task.Unsaid surroundings tree outcome saving refusal
  others : ∀ place, outcome.tree.content? place ≠ tree.content? place →
    ∃ task path, surroundings.grammar.asked? words = some (.task task) ∧
      task.target? surroundings.home = some path ∧ place = tree.resolve path

theorem Outcome.spares_same {outcome : Outcome} (same : outcome.tree = tree) :
    outcome.Spares surroundings tree words where
  failed _ := .inl same
  others _ changed := absurd (by rw [same]) changed

theorem Outcome.spares_stopped (report : Report) (stop : Stop) :
    (stopped report tree stop).Spares surroundings tree words := by
  cases stop with
  | exited status => exact spares_same rfl
  | crashed cause => exact spares_same rfl

theorem Outcome.told_eq_crashed {console : Console} {report : Report} {markup : Text}
    (bad : (told console report tree markup 0).status ≠ 0) :
    ∃ refusal, console.refusal? (.line markup) = some refusal ∧
      told console report tree markup 0 = crashed (.failure (.fault refusal)) report tree := by
  rw [told, Console.print] at bad ⊢
  cases refused : console.refusal? (.line markup) with
  | none =>
    rw [refused] at bad
    exact absurd rfl bad
  | some refusal => exact ⟨refusal, rfl, rfl⟩

theorem Outcome.spares_ofSaving {task : Task} {saving? : Option Saving}
    (line : surroundings.grammar.asked? words = some (.task task))
    (left : task.Leaves surroundings.home tree saving?)
    (dumps : ∀ document, task.document? surroundings.home tree = some document →
      ∃ text, surroundings.home.library.write document = .ok text) (report : Report) :
    (ofSaving surroundings.console report tree saving?).Spares surroundings tree words := by
  cases saving? with
  | none => exact spares_same rfl
  | some saving =>
    have asks := left saving rfl
    rw [ofSaving]
    split
    · rename_i after done
      refine ⟨fun failed => .inr ?_, fun place changed => ?_⟩
      · obtain ⟨refusal, refused, same⟩ := told_eq_crashed failed
        refine ⟨task, saving, refusal, line, asks, ?_, refused, ?_⟩
        · rw [tree_told, done]
        · rw [same]
          rfl
      -- Nowhere else does a run change anything.
      · refine ⟨task, saving.change.path, line, asks.path, ?_⟩
        rw [tree_told] at changed
        exact Decidable.of_not_not fun apart => changed (Change.content?_apply done apart)
    · rename_i after cause stopped
      have kept : after = tree := Change.apply_eq_stopped (asks.writable dumps) stopped
      split
      · exact spares_same ((tree_told ..).trans kept)
      · exact spares_same kept

/-- A run that does not watch ends, and changes nothing but the target of its command. If it does
not end well it changes not even that, unless the console refuses the line after the change. A
document that it makes for the settings file is taken to have a text. -/
theorem run_spares (surroundings : Surroundings) (tree : FileTree) (words : List Text)
    (answers : ∀ path interval suffix,
      surroundings.grammar.asked? words ≠ some (.watch path interval suffix))
    (dumps : ∀ task document, surroundings.grammar.asked? words = some (.task task) →
      task.document? surroundings.home tree = some document →
      ∃ text, surroundings.home.library.write document = .ok text) :
    ∃ outcome, run surroundings tree words = .ended outcome ∧
      outcome.Spares surroundings tree words := by
  rw [run]
  split
  · rename_i stop report _
    exact ⟨_, rfl, Outcome.spares_stopped report stop⟩
  · rename_i saving? report ran
    obtain ⟨command, line, rest⟩ := yields_prepare Task.yields_perform _ _ _ ran
    cases rest with
    | save left => exact ⟨_, rfl, Outcome.spares_ofSaving line left (dumps _ · line) report⟩
  · rename_i watch report ran
    obtain ⟨command, line, rest⟩ := yields_prepare Task.yields_perform _ _ _ ran
    cases rest with
    | watch => exact absurd line (answers _ _ _)

theorem run_spares_changing_setting :
    let surroundings : Surroundings :=
      { home := ⟨.ofText "home".toList, Toml.flat⟩, grammar := .switches, console := .tagged }
    let words := ["config", "set", "ink_theme", "dark"].map String.toList
    ∃ outcome, run surroundings {} words = .ended outcome ∧
      outcome.Spares surroundings {} words := by
  have line : Grammar.switches.asked? (["config", "set", "ink_theme", "dark"].map String.toList) =
      some (.task (.changeSetting "ink_theme".toList "dark".toList)) := by rfl
  refine run_spares _ _ _ ?_ ?_
  · intro path interval suffix asked
    exact absurd (Option.some.inj (line.symm.trans asked)) nofun
  · intro task document asked made
    have same := Command.task.inj (Option.some.inj (line.symm.trans asked))
    subst same
    have same : document =
        [("flowdsl".toList, .table [("ink_theme".toList, .text "dark".toList)])] :=
      (Option.some.inj made).symm
    rw [same]
    exact ⟨"[flowdsl]\nink_theme = \"dark\"\n".toList, ok_of_toOption (by decide +kernel)⟩

/-- Each of two labels is escaped for itself, but together they make a tag that closes nothing. The
file is written before the line with both is refused. -/
theorem renamed_but_unsaid :
    let surroundings : Surroundings :=
      { home := ⟨.ofText "home".toList, Toml.flat⟩, grammar := .switches, console := .tagged }
    let holding (source : String) : FileTree :=
      { entries := [(["a.flow".toList], .file (Text.toUtf8 source.toList))] }
    let words := ["rename", "a.flow", "[/x", "y]"].map String.toList
    (match run surroundings (holding "[/x") words with
      | .ended outcome => some (outcome.status, outcome.tree)
      | .watching .. => none) = some (refused, holding "y]") ∧ holding "y]" ≠ holding "[/x" := by
  decide +kernel

end Flowchart.Command
