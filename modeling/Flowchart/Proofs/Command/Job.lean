import Flowchart.Command.Run
import Flowchart.Proofs.Except
import Mathlib.Data.List.Forall2

/-!
What jobs end with. A chain of jobs yields something if each of them does, and the first that stops
ends it; so what a run leaves to be done is what its task yields.
-/
namespace Flowchart.Command

variable {α β : Type} {surroundings : Surroundings} {console : Console} {tree : FileTree}
  {words : List Text}

namespace Job

variable {P : α → Prop} {Q : β → Prop}

/-- Whatever was said before, the job stops or yields something with a property. -/
def Yields (job : Job α) (P : α → Prop) : Prop :=
  ∀ before a after, job.run.run before = (.ok a, after) → P a

/-- Whatever was said before, the job does not stop as if all were well. -/
def Fails (job : Job α) : Prop :=
  ∀ before stop after, job.run.run before = (.error stop, after) → stop ≠ .exited 0

theorem bind_eq_ok {job : Job α} {next : α → Job β} {before after : Report} {b : β}
    (ran : (job >>= next).run.run before = (.ok b, after)) :
    ∃ a middle, job.run.run before = (.ok a, middle) ∧
      (next a).run.run middle = (.ok b, after) := by
  simp only [ExceptT.run_bind, StateT.run_bind] at ran
  rcases ended : job.run.run before with ⟨result, middle⟩
  rw [ended] at ran
  cases result with
  | error stop => exact absurd (congrArg Prod.fst ran) nofun
  | ok a => exact ⟨a, middle, rfl, ran⟩

theorem bind_eq_error {job : Job α} {next : α → Job β} {before after : Report} {stop : Stop}
    (ran : (job >>= next).run.run before = (.error stop, after)) :
    job.run.run before = (.error stop, after) ∨
      ∃ a middle, (next a).run.run middle = (.error stop, after) := by
  simp only [ExceptT.run_bind, StateT.run_bind] at ran
  rcases ended : job.run.run before with ⟨result, middle⟩
  rw [ended] at ran
  cases result with
  | error other =>
    obtain ⟨same, rfl⟩ := Prod.mk.inj ran
    rw [Except.error.inj same]
    exact .inl rfl
  | ok a => exact .inr ⟨a, middle, ran⟩

theorem yields_pure {a : α} (holds : P a) : (pure a : Job α).Yields P := by
  intro before b after ran
  exact Except.ok.inj (Prod.mk.inj ran).1 ▸ holds

theorem yields_throw (stop : Stop) : (throw stop : Job α).Yields P := by
  intro before a after ran
  exact absurd (congrArg Prod.fst ran) nofun

theorem Yields.bind {job : Job α} {next : α → Job β} (first : job.Yields P)
    (later : ∀ a, P a → (next a).Yields Q) : (job >>= next).Yields Q := by
  intro before b after ran
  obtain ⟨a, middle, started, ended⟩ := bind_eq_ok ran
  exact later a (first before a middle started) middle b after ended

/-- What a job yields does not matter where any continuation yields what it should. -/
theorem yields_bind (job : Job α) {next : α → Job β} (later : ∀ a, (next a).Yields Q) :
    (job >>= next).Yields Q :=
  Yields.bind (P := fun _ => True) (fun _ _ _ _ => trivial) fun a _ => later a

theorem yields_mapM {job : α → Job β} {R : α → β → Prop} (each : ∀ a, (job a).Yields (R a))
    (list : List α) : (list.mapM job).Yields (List.Forall₂ R list) := by
  induction list with
  | nil => exact yields_pure .nil
  | cons a rest ih =>
    rw [List.mapM_cons]
    exact (each a).bind fun b first => ih.bind fun bs later => yields_pure (.cons first later)

theorem fails_pure (a : α) : (pure a : Job α).Fails := by
  intro before stop after ran
  exact absurd (congrArg Prod.fst ran) nofun

theorem fails_tell (change : Report → Report) : (tell change).Fails := by
  intro before stop after ran
  exact absurd (congrArg Prod.fst ran) nofun

theorem fails_throw {stop : Stop} (bad : stop ≠ .exited 0) : (throw stop : Job α).Fails := by
  intro before other after ran
  rwa [← Except.error.inj (Prod.mk.inj ran).1]

theorem Fails.bind {job : Job α} {next : α → Job β} (first : job.Fails)
    (later : ∀ a, (next a).Fails) : (job >>= next).Fails := by
  intro before stop after ran
  rcases bind_eq_error ran with stopped | ⟨a, middle, stopped⟩
  · exact first before stop after stopped
  · exact later a middle stop after stopped

theorem fails_forM {job : α → Job PUnit} (each : ∀ a, (job a).Fails) (list : List α) :
    (list.forM job).Fails := by
  induction list with
  | nil => exact fails_pure _
  | cons a rest ih => exact (each a).bind fun _ => ih

theorem fails_mapM {job : α → Job β} (each : ∀ a, (job a).Fails) (list : List α) :
    (list.mapM job).Fails := by
  induction list with
  | nil => exact fails_pure []
  | cons a rest ih =>
    rw [List.mapM_cons]
    exact (each a).bind fun b => ih.bind fun bs => fails_pure (b :: bs)

/-! ### The steps of commands -/

theorem yields_exit (status : Nat) : (exit status : Job α).Yields P := yields_throw _

theorem yields_crash (cause : Crash) : (crash cause : Job α).Yields P := yields_throw _

theorem yields_fail (message : Text) : (fail console message : Job α).Yields P :=
  yields_bind _ fun _ => yields_exit refused

theorem yields_noted (step : Settings.Step α) : (noted step).Yields (· = step.1) :=
  yields_bind _ fun _ => yields_pure rfl

theorem yields_orCrash (result : Except Failure α) : (orCrash result).Yields (result = .ok ·) := by
  cases result with
  | ok a => exact yields_pure rfl
  | error cause => exact yields_crash _

theorem yields_compiled (source : Text) :
    (compiled surroundings source).Yields (compileWith surroundings.fault source = .ok ·) := by
  refine yields_bind _ fun _ => ?_
  split
  · rename_i markup given
    exact yields_pure given
  · exact yields_fail _

theorem yields_document (tree : FileTree) (name : Text) :
    (document tree name).Yields (· = Path.ofText name) := by
  rw [document]
  split
  · exact yields_pure rfl
  · exact yields_exit absent

theorem fails_exit {status : Nat} (bad : status ≠ 0) : (exit status : Job α).Fails :=
  fails_throw fun same => bad (Stop.exited.inj same)

theorem fails_crash (cause : Crash) : (crash cause : Job α).Fails := fails_throw nofun

theorem fails_print (block : Block) : (print console block).Fails := by
  refine Fails.bind (fun _ _ _ ran => absurd (congrArg Prod.fst ran) nofun) fun report => ?_
  cases console.print report block with
  | ok after => exact fails_tell fun _ => after
  | error fault => exact fails_crash _

theorem fails_fail (message : Text) : (fail console message : Job α).Fails :=
  (fails_print _).bind fun _ => fails_exit (by decide)

theorem fails_lookAt (call path : Text) : (lookAt call path).Fails := by
  rw [lookAt]
  split
  · exact fails_crash _
  · exact fails_pure _

theorem fails_settings : (settings surroundings tree).Fails := by
  refine Fails.bind ((fails_tell _).bind fun _ => fails_pure _) fun result => ?_
  cases result with
  | ok settings => exact fails_pure settings
  | error error => exact fails_crash _

theorem fails_orCrash (result : Except Failure α) : (orCrash result).Fails := by
  cases result with
  | ok a => exact fails_pure a
  | error cause => exact fails_crash _

theorem fails_compiled (source : Text) : (compiled surroundings source).Fails := by
  refine (fails_tell _).bind fun _ => ?_
  split
  · exact fails_pure _
  · exact fails_fail _

theorem fails_document (tree : FileTree) (name : Text) : (document tree name).Fails := by
  rw [document]
  split
  · exact fails_pure _
  · exact fails_exit (by decide)

end Job

/-! ### Preparing -/

/-- What a command leaves to be done: for a task, what the task leaves to be written. -/
inductive Rest.Of (leaves : Task → Option Saving → Prop) : Command → Rest → Prop
  | save {task : Task} {saving? : Option Saving} (left : leaves task saving?) :
    Of leaves (.task task) (.save saving?)
  | watch {path : Text} {interval : Option Float} {suffix : Option Text} (watch : Watch) :
    Of leaves (.watch path interval suffix) (.watch watch)

theorem yields_orAside (result : Except Aside α) : (orAside result).Yields (result = .ok ·) := by
  cases result with
  | ok a => exact Job.yields_pure rfl
  | error aside => cases aside <;> exact fun _ _ _ ran => absurd (congrArg Prod.fst ran) nofun

theorem Grammar.asked?_eq_some {grammar : Grammar} {command : Command} :
    grammar.asked? words = some command ↔
      ∃ invocation, grammar.invocation words = .ok invocation ∧
        grammar.command invocation.verb invocation.words = .ok command := by
  constructor
  · intro asked
    exact ok_of_bind (ok_of_toOption asked)
  · rintro ⟨invocation, invoked, asked⟩
    rw [asked?, invoked]
    exact congrArg Except.toOption asked

theorem yields_prepare {leaves : Task → Option Saving → Prop}
    (performed : ∀ task, (Task.perform surroundings tree task).Yields (leaves task)) :
    (prepare surroundings tree words).Yields fun rest =>
      ∃ command, surroundings.grammar.asked? words = some command ∧ rest.Of leaves command := by
  refine (yields_orAside _).bind fun invocation invoked => ?_
  refine Job.yields_bind _ fun _ => (yields_orAside _).bind fun command asked => ?_
  have line := Grammar.asked?_eq_some.mpr ⟨invocation, invoked, asked⟩
  cases command with
  | task task =>
    refine Job.yields_bind _ fun _ => (performed task).bind fun saving left => Job.yields_pure ?_
    exact ⟨.task task, line, .save left⟩
  | watch path interval suffix =>
    refine Job.yields_bind _ fun watch => Job.yields_pure ?_
    exact ⟨.watch path interval suffix, line, .watch watch⟩

theorem fails_setLevel (verbose : Bool) : (setLevel surroundings tree verbose).Fails := by
  cases verbose with
  | true => exact Job.fails_tell _
  | false => exact Job.fails_settings.bind fun _ => Job.fails_tell _

/-- Where a task is asked for, only the task can stop the run, or the settings, or a path that
cannot be asked for. -/
theorem fails_prepare {task : Task} (asked : surroundings.grammar.asked? words = some (.task task))
    (performed : (task.perform surroundings tree).Fails) :
    (prepare surroundings tree words).Fails := by
  obtain ⟨invocation, invoked, read⟩ := Grammar.asked?_eq_some.mp asked
  have same : prepare surroundings tree words = do
      setLevel surroundings tree invocation.verbose
      task.named.forM fun path => Job.lookAt "stat".toList path.toText
      return .save (← task.perform surroundings tree) := by
    simp only [prepare, invoked, read, orAside, pure_bind]
  rw [same]
  refine (fails_setLevel _).bind fun _ => (Job.fails_forM (fun _ => ?_) _).bind fun _ => ?_
  · exact Job.fails_lookAt _ _
  · exact performed.bind fun _ => Job.fails_pure _

/-! ### Ending -/

theorem Outcome.tree_told (report : Report) (tree : FileTree) (markup : Text) (status : Nat) :
    (told console report tree markup status).tree = tree := by
  rw [told]
  split <;> rfl

end Flowchart.Command
