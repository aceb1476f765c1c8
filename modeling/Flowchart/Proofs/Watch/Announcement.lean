import Flowchart.Proofs.Command.Job
import Flowchart.Proofs.Watch.Pass

/-!
What the console makes of the announcement that stands between the pass at the start and the waiting
for changes. Its last line closes a style that the line itself has not opened, so a console that
does not put up with that ends the run there.
-/
namespace Flowchart

/-- An item that fails in every state is not passed. -/
theorem handleAll_fails {σ α ε : Type} {handle : σ → α → σ × Option ε} {items : List α} {item : α}
    (member : item ∈ items) (fails : ∀ state, (handle state item).2 ≠ none) (state : σ) :
    (handleAll handle state items).2 ≠ none := by
  induction items generalizing state with
  | nil => contradiction
  | cons first rest ih =>
    rw [handleAll]
    cases handled : handle state first with
    | mk after failure? =>
      cases failure? with
      | some failure => exact Option.some_ne_none _
      | none =>
        rcases List.mem_cons.mp member with rfl | later
        · exact absurd (congrArg Prod.snd handled) (fails state)
        · exact ih later after

namespace Watch

namespace Session

/-- The announcement changes nothing but the report. -/
theorem start_eq_pass (watch : Watch) (tree : FileTree) (report : Report) :
    ∃ said, (start watch tree report).1 = { (pass watch tree report).1 with report := said } := by
  unfold start
  cases pass watch tree report with
  | mk session failure? =>
    cases failure? with
    | some failure => exact ⟨session.report, rfl⟩
    | none =>
      refine handleAll_keeps
        (P := fun state : Session => ∃ report, state = { session with report }) ?_ ⟨_, rfl⟩
      rintro markup _ _ ⟨report, rfl⟩
      exact say_eq watch { session with report } markup

theorem tree_start (watch : Watch) (tree : FileTree) (report : Report) :
    (start watch tree report).1.tree = (pass watch tree report).1.tree := by
  obtain ⟨said, same⟩ := start_eq_pass watch tree report
  rw [same]

theorem say_fails {watch : Watch} {markup : Text} (hidden : ¬watch.console.Shows markup)
    (session : Session) : (session.say watch markup).2 ≠ none := by
  rw [say, Console.print]
  cases refused : watch.console.refusal? (.line markup) with
  | none => exact absurd refused hidden
  | some refusal => exact Option.some_ne_none _

/-- Where a closing tag has to close something, the last line of the announcement is refused, if
nothing ends the session before. -/
theorem start_fails {watch : Watch} (strict : watch.console.Strict) (tree : FileTree)
    (report : Report) : ∃ failure, (start watch tree report).2 = some failure := by
  have hidden : ¬watch.console.Shows "  Press Ctrl+C to stop[/dim]\n".toList :=
    strict "  Press Ctrl+C to stop".toList "dim".toList ['\n'] (by decide) (by decide) (by decide)
      (by decide)
  apply Option.ne_none_iff_exists'.mp
  unfold start
  cases pass watch tree report with
  | mk session failure? =>
    cases failure? with
    | some failure => exact Option.some_ne_none _
    | none => exact handleAll_fails (by simp [announcement]) (say_fails hidden) session

end Session

end Watch

namespace Command

variable {surroundings : Surroundings} {tree : FileTree}

open Job in
/-- A watch shows what it says where everything else is shown. -/
theorem yields_prepareWatch (name : Text) (interval : Option Float) (suffix : Option Text) :
    (prepareWatch surroundings tree name interval suffix).Yields
      (·.console = surroundings.console) := by
  have found (location : Location) : Job.Yields (do
      let settings ← Job.settings surroundings tree
      return ({
        location
        debounce := interval.getD settings.watchInterval
        suffix := if suffix.getD [] = [] then settings.outputSuffix else suffix.getD []
        fault := surroundings.fault
        console := surroundings.console } : Watch)) (·.console = surroundings.console) :=
    yields_bind _ fun _ => yields_pure rfl
  rw [prepareWatch]
  dsimp only
  split
  · refine yields_bind _ fun _ => yields_bind _ fun _ => ?_
    exact (yields_exit (P := fun _ => False) refused).bind fun _ none => none.elim
  · refine yields_bind _ fun _ => yields_bind _ fun entry? => ?_
    split
    · exact yields_bind _ fun _ => found _
    · exact found _

/-- With such a console every run ends, whatever is asked for. -/
theorem run_ends (strict : surroundings.console.Strict) (tree : FileTree) (words : List Text) :
    ∃ outcome, run surroundings tree words = .ended outcome := by
  have watched : (prepare surroundings tree words).Yields fun rest =>
      ∀ watch, rest = .watch watch → watch.console = surroundings.console := by
    refine Job.yields_bind _ fun _ => Job.yields_bind _ fun _ => Job.yields_bind _ fun command => ?_
    cases command with
    | task task =>
      refine Job.yields_bind _ fun _ => Job.yields_bind _ fun _ => Job.yields_pure ?_
      intro watch same
      contradiction
    | watch name interval suffix =>
      refine (yields_prepareWatch name interval suffix).bind fun watch same => Job.yields_pure ?_
      rintro _ ⟨⟩
      exact same
  rw [run]
  split
  · exact ⟨_, rfl⟩
  · exact ⟨_, rfl⟩
  · rename_i watch report ran
    have same := watched _ _ _ ran watch rfl
    obtain ⟨failure, failed⟩ := Watch.Session.start_fails (same ▸ strict) tree report
    cases started : Watch.Session.start watch tree report with
    | mk session failure? =>
      rw [started] at failed
      obtain rfl : failure? = some failure := failed
      exact ⟨_, rfl⟩

end Command

end Flowchart
