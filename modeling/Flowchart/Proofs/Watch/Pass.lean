import Flowchart.Proofs.Console
import Flowchart.Proofs.Retained
import Flowchart.Watch

/-!
What a pass over sources does to the file tree. Compiling a source writes at most its target, so a
source keeps its text until its turn unless an earlier one is compiled into it, and its target keeps
the markup unless a later source has the same. What the console makes of it all does not change the
file tree, but it can end the pass.
-/
namespace Flowchart

section Handling

variable {σ α ε : Type} {handle : σ → α → σ × Option ε} {state : σ} {items : List α}

theorem handleAll_append (front back : List α) :
    handleAll handle state (front ++ back) =
      match handleAll handle state front with
      | (after, some failure) => (after, some failure)
      | (after, none) => handleAll handle after back := by
  induction front generalizing state with
  | nil => rfl
  | cons item rest ih =>
    rw [List.cons_append, handleAll, handleAll]
    cases handle state item with
    | mk after failure? =>
      cases failure? with
      | some failure => rfl
      | none => exact ih

/-- What handling each file keeps, handling them all keeps. -/
theorem handleAll_keeps {P : σ → Prop}
    (kept : ∀ item ∈ items, ∀ state, P state → P (handle state item).1) (start : P state) :
    P (handleAll handle state items).1 := by
  induction items generalizing state with
  | nil => exact start
  | cons item rest ih =>
    obtain ⟨first, later⟩ := List.forall_mem_cons.mp kept
    have next := first state start
    rw [handleAll]
    cases handled : handle state item with
    | mk after failure? =>
      rw [handled] at next
      cases failure? with
      | some failure => exact next
      | none => exact ih later next

theorem handleAll_passes {P : σ → Prop}
    (kept : ∀ item ∈ items, ∀ state, P state → P (handle state item).1)
    (passes : ∀ item ∈ items, ∀ state, P state → (handle state item).2 = none) (start : P state) :
    (handleAll handle state items).2 = none := by
  induction items generalizing state with
  | nil => rfl
  | cons item rest ih =>
    obtain ⟨first, later⟩ := List.forall_mem_cons.mp kept
    obtain ⟨here, others⟩ := List.forall_mem_cons.mp passes
    have next := first state start
    have through := here state start
    rw [handleAll]
    cases handled : handle state item with
    | mk after failure? =>
      rw [handled] at next through
      obtain rfl : failure? = none := through
      exact ih later others next

end Handling

namespace Sibling

variable {fault : Option Fault} {suffix : Text} {tree after : FileTree} {path target : Path}

theorem compile_eq_ok : compile fault suffix tree path = .ok (target, after) ↔
    ∃ source markup, tree.readText path = .ok source ∧ compileWith fault source = .ok markup ∧
      path.withSuffix suffix = .ok target ∧
      tree.save target (Text.toUtf8 (markup ++ ['\n'])) = .ok after := by
  constructor
  · intro compiled
    obtain ⟨source, read, rest⟩ := ok_of_bind compiled
    obtain ⟨markup, given, rest⟩ := ok_of_bind rest
    obtain ⟨named, renamed, rest⟩ := ok_of_bind rest
    obtain ⟨written, saved, same⟩ := ok_of_bind rest
    obtain ⟨rfl, rfl⟩ := Prod.mk.inj (Except.ok.inj same)
    exact ⟨source, markup, read, ok_of_mapError given, ok_of_mapError renamed, saved⟩
  · rintro ⟨source, markup, read, given, renamed, saved⟩
    simp [compile, read, given, renamed, saved, bind, Except.bind, pure, Except.pure]

/-- What cannot be written cannot be compiled. -/
theorem compile_of_save {source markup : Text} {failure : Failure}
    (read : tree.readText path = .ok source) (given : compileWith fault source = .ok markup)
    (renamed : path.withSuffix suffix = .ok target)
    (stopped : tree.save target (Text.toUtf8 (markup ++ ['\n'])) = .error failure) :
    compile fault suffix tree path = .error failure := by
  simp [compile, read, given, renamed, stopped, bind, Except.bind]

/-- With text to read and a suffix to have, compiling fails only for the file system or the source.
-/
theorem compile_of_decodes (decodes : tree.Decodes path) (whole : '\x00' ∉ path.toText)
    (renamed : path.withSuffix suffix = .ok target) (wholeTarget : '\x00' ∉ target.toText) :
    (∃ after, compile fault suffix tree path = .ok (target, after)) ∨
      (∃ error, compile fault suffix tree path = .error (.file error)) ∨
      ∃ source error, compileWith fault source = .error error ∧
        compile fault suffix tree path = .error (.compile error) := by
  cases read : tree.readText path with
  | error failure =>
    obtain ⟨error, rfl⟩ := decodes.error whole read
    refine .inr (.inl ⟨error, ?_⟩)
    simp [compile, read, bind, Except.bind]
  | ok source =>
    cases given : compileWith fault source with
    | error error =>
      refine .inr (.inr ⟨source, error, given, ?_⟩)
      simp [compile, read, given, bind, Except.bind]
    | ok markup =>
      cases saved : tree.save target (Text.toUtf8 (markup ++ ['\n'])) with
      | error failure =>
        obtain ⟨error, rfl⟩ := FileTree.error_of_save wholeTarget saved
        exact .inr (.inl ⟨error, compile_of_save read given renamed saved⟩)
      | ok after =>
        exact .inl ⟨after, compile_eq_ok.mpr ⟨source, markup, read, given, renamed, saved⟩⟩

end Sibling

namespace Watch

open FileTree (Retained)

variable {watch : Watch} {tree : FileTree} {session : Session} {path target : Path}
  {paths : List Path}

/-- The place that compiling a path may write to. There is none for a directory, which cannot be
read. -/
def destination? (watch : Watch) (tree : FileTree) (path : Path) : Option Location :=
  if tree.isDirectory path then none
  else (path.withSuffix watch.suffix).toOption.map tree.resolve

theorem destination?_eq {touched : Location → Prop} {after : FileTree}
    (retained : Retained touched tree after) (path : Path) :
    watch.destination? after path = watch.destination? tree path := by
  rw [destination?, destination?, retained.isDirectory_eq, funext retained.resolve_eq]

/-- With a path like this no pass ends: what is there can be decoded, there is no null character in
the path or its target, and the console shows what becomes of it. -/
structure Harmless (watch : Watch) (tree : FileTree) (path : Path) : Prop where
  decodes : tree.Decodes path
  whole : '\x00' ∉ path.toText
  target : ∀ target, path.withSuffix watch.suffix = .ok target →
    '\x00' ∉ target.toText ∧ watch.console.Shows (watch.doneLine path target)
  failure : ∀ source error, compileWith watch.fault source = .error error →
    watch.console.Shows (watch.failedLine path error)

theorem Harmless.retained {touched : Location → Prop} {after : FileTree}
    (harmless : watch.Harmless tree path) (retained : Retained touched tree after) :
    watch.Harmless after path :=
  { harmless with decodes := retained.decodes harmless.decodes }

namespace Session

/-- The console changes nothing but the report. -/
theorem say_eq (watch : Watch) (session : Session) (markup : Text) :
    ∃ report, (session.say watch markup).1 = { session with report } := by
  unfold say
  split <;> exact ⟨_, rfl⟩

theorem tree_say (watch : Watch) (session : Session) (markup : Text) :
    (session.say watch markup).1.tree = session.tree := by
  obtain ⟨report, same⟩ := say_eq watch session markup
  rw [same]

theorem say_passes {markup : Text} (shown : watch.console.Shows markup) (session : Session) :
    (session.say watch markup).2 = none := by
  rw [say, Console.print, shown]

theorem tree_noteCompiling (session : Session) (watch : Watch) (path : Path) :
    (session.noteCompiling watch path).tree = session.tree := by
  unfold noteCompiling
  split
  · rfl
  · rfl

theorem recompile_of_unconcerned (aside : watch.concerns session.tree path = false) :
    session.recompile watch path = (session, none) := by
  simp [recompile, aside]

theorem recompile_of_ok {after : FileTree} (concerned : watch.concerns session.tree path = true)
    (compiled : Sibling.compile watch.fault watch.suffix session.tree path = .ok (target, after)) :
    (session.recompile watch path).1.tree = after ∧
      (watch.console.Shows (watch.doneLine path target) →
        (session.recompile watch path).2 = none) := by
  simp only [recompile, concerned, tree_noteCompiling, compiled]
  exact ⟨tree_say .., fun shown => say_passes shown _⟩

theorem recompile_of_error {failure : Failure}
    (failed : Sibling.compile watch.fault watch.suffix session.tree path = .error failure) :
    (session.recompile watch path).1.tree = session.tree := by
  have noted := tree_noteCompiling session watch path
  unfold recompile
  split
  · rfl
  · dsimp only
    rw [noted, failed]
    cases failure with
    | compile error => exact (tree_say ..).trans noted
    | _ => exact noted

/-- What the file system refuses ends no session. -/
theorem recompile_of_refused {error : FileTree.Error}
    (failed : Sibling.compile watch.fault watch.suffix session.tree path = .error (.file error)) :
    (session.recompile watch path).2 = none := by
  unfold recompile
  split
  · rfl
  · dsimp only
    rw [tree_noteCompiling, failed]

/-- A failure of neither the source nor the file system ends the session. -/
theorem recompile_ends {failure : Failure} (concerned : watch.concerns session.tree path = true)
    (failed : Sibling.compile watch.fault watch.suffix session.tree path = .error failure)
    (source : ∀ error, failure ≠ .compile error) (system : ∀ error, failure ≠ .file error) :
    (session.recompile watch path).2 = some failure := by
  simp only [recompile, concerned, tree_noteCompiling, failed]
  cases failure with
  | compile error => exact absurd rfl (source error)
  | file error => exact absurd rfl (system error)
  | _ => rfl

/-- Compiling a path writes nothing but its destination. -/
theorem retained_recompile (watch : Watch) (session : Session) (path : Path) :
    Retained (fun place => watch.destination? session.tree path = some place) session.tree
      (session.recompile watch path).1.tree := by
  cases concerned : watch.concerns session.tree path with
  | false =>
    rw [recompile_of_unconcerned concerned]
    exact .refl session.tree
  | true =>
    cases compiled : Sibling.compile watch.fault watch.suffix session.tree path with
    | error failure =>
      rw [recompile_of_error compiled]
      exact .refl session.tree
    | ok written =>
      obtain ⟨source, markup, read, _, renamed, saved⟩ := Sibling.compile_eq_ok.mp compiled
      rw [(recompile_of_ok concerned compiled).1]
      refine (Retained.of_save saved).mono fun place same => ?_
      rw [destination?, FileTree.isDirectory_of_readText read, renamed, ← same]
      rfl

theorem recompile_passes (harmless : watch.Harmless session.tree path)
    (renamed : path.withSuffix watch.suffix = .ok target) :
    (session.recompile watch path).2 = none := by
  obtain ⟨wholeTarget, done⟩ := harmless.target target renamed
  cases concerned : watch.concerns session.tree path with
  | false => rw [recompile_of_unconcerned concerned]
  | true =>
    rcases Sibling.compile_of_decodes harmless.decodes harmless.whole renamed wholeTarget with
      ⟨after, compiled⟩ | ⟨error, failed⟩ | ⟨source, error, wrong, failed⟩
    · exact (recompile_of_ok concerned compiled).2 done
    · exact recompile_of_refused failed
    · have said := say_passes (harmless.failure source error wrong)
        (session.noteCompiling watch path)
      simpa [recompile, concerned, tree_noteCompiling, failed] using said

/-! ### A whole pass -/

/-- A pass over some paths writes nothing but their destinations. -/
theorem retained_handleAll (watch : Watch) (session : Session) (paths : List Path) :
    Retained (fun place => some place ∈ paths.map (watch.destination? session.tree)) session.tree
      (handleAll (recompile watch) session paths).1.tree := by
  refine handleAll_keeps (P := fun state : Session => Retained _ session.tree state.tree) ?_
    (.refl _)
  intro path member state retained
  refine retained.trans ((retained_recompile watch state path).mono fun place found => ?_)
  rw [destination?_eq retained] at found
  exact List.mem_map.mpr ⟨path, member, found⟩

/-- A pass over harmless paths ends at the last of them, whatever becomes of each. -/
theorem handleAll_passes_of_harmless
    (harmless : ∀ path ∈ paths, watch.Harmless session.tree path)
    (renamed : ∀ path ∈ paths, ∃ target, path.withSuffix watch.suffix = .ok target) :
    (handleAll (recompile watch) session paths).2 = none := by
  refine handleAll_passes
    (P := fun state : Session => Retained (fun _ => True) session.tree state.tree) ?_ ?_ (.refl _)
  · intro path _ state retained
    exact retained.trans ((retained_recompile watch state path).mono fun _ _ => trivial)
  · intro path member state retained
    obtain ⟨target, named⟩ := renamed path member
    exact recompile_passes ((harmless path member).retained retained) named

theorem concerns_of_directory {tree : FileTree} (directory : tree.isDirectory watch.path = true)
    (path : Path) : watch.concerns tree path = true := by
  rw [concerns, FileTree.isFile_of_isDirectory directory]
  rfl

/-- A source with text leaves its markup at its target, if a file can be there. -/
theorem read_recompile {text markup : Text} (concerned : watch.concerns session.tree path = true)
    (read : session.tree.readText path = .ok text)
    (given : compileWith watch.fault text = .ok markup)
    (renamed : path.withSuffix watch.suffix = .ok target) (nameable : target.Nameable)
    (free : session.tree.isDirectory target = false) :
    (session.recompile watch path).1.tree.read target = .ok (Text.toUtf8 (markup ++ ['\n'])) ∧
      (watch.console.Shows (watch.doneLine path target) →
        (session.recompile watch path).2 = none) := by
  obtain ⟨after, saved⟩ :=
    FileTree.save_withSuffix read renamed nameable free (Text.toUtf8 (markup ++ ['\n']))
  have compiled : Sibling.compile watch.fault watch.suffix session.tree path =
      .ok (target, after) :=
    Sibling.compile_eq_ok.mpr ⟨text, markup, read, given, renamed, saved⟩
  obtain ⟨written, passes⟩ := recompile_of_ok concerned compiled
  rw [written]
  exact ⟨FileTree.read_save saved, passes⟩

/-- The markup stays at the target if no source before is compiled into the source, and none behind
into the target. -/
theorem read_handleAll {before behind : List Path} {text markup : Text}
    (directory : session.tree.isDirectory watch.path = true)
    (passes : (handleAll (recompile watch) session before).2 = none)
    (read : session.tree.readText path = .ok text)
    (given : compileWith watch.fault text = .ok markup)
    (renamed : path.withSuffix watch.suffix = .ok target) (nameable : target.Nameable)
    (free : session.tree.isDirectory target = false)
    (kept : some (session.tree.resolve path) ∉ before.map (watch.destination? session.tree))
    (last : some (session.tree.resolve target) ∉ behind.map (watch.destination? session.tree)) :
    (handleAll (recompile watch) session (before ++ path :: behind)).1.tree.read target =
      .ok (Text.toUtf8 (markup ++ ['\n'])) := by
  have earlier := retained_handleAll watch session before
  rw [handleAll_append]
  cases ran : handleAll (recompile watch) session before with
  | mk state failure? =>
    rw [ran] at earlier passes
    obtain rfl : failure? = none := passes
    have concerned : watch.concerns state.tree path = true :=
      concerns_of_directory (earlier.isDirectory_eq _ ▸ directory) path
    obtain ⟨written, _⟩ := read_recompile concerned ((earlier.readText_eq_ok kept).mpr read) given
      renamed nameable (earlier.isDirectory_eq _ ▸ free)
    have own := retained_recompile watch state path
    dsimp only
    rw [handleAll]
    cases done : state.recompile watch path with
    | mk next failure? =>
      rw [done] at written own
      -- Even if the console ends the pass here, the markup is there.
      cases failure? with
      | some failure => exact written
      | none =>
        have whole : Retained (fun _ => True) session.tree next.tree :=
          (earlier.mono fun _ _ => trivial).trans (own.mono fun _ _ => trivial)
        have later := retained_handleAll watch next behind
        refine (later.read_eq_ok ?_).mpr written
        rwa [whole.resolve_eq, funext (destination?_eq whole)]

end Session

end Watch

end Flowchart
