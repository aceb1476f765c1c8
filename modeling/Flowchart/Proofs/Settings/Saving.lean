import Flowchart.Proofs.Settings.Fallback
import Flowchart.Proofs.Settings.Section

/-!
Saving over a settings file with any content. Every call that changes the file writes a whole
document: the one that the file counts as, with another section. So a file that is read keeps what
it holds outside of the section. A malformed file counts as empty, and what it held is gone.
-/
namespace Flowchart.Settings

variable {home : Home} {tree : FileTree} {document dumped : Toml.Document} {text : Text}

/-- A call that changes the settings file. -/
inductive Saving where
  | save (updates : Toml.Document)
  | set (name raw : Text)
  | reset

namespace Saving

def attempt (home : Home) (tree : FileTree) : Saving → Attempt Unit
  | save updates => Settings.save home tree updates
  | set name raw =>
    let stored := store home tree name raw
    { stored with result := stored.result.map fun _ => () }
  | reset => Settings.reset home tree

/-- The step to the document that a call gives the writer. -/
def step (home : Home) (tree : FileTree) : Saving → Step Toml.Document
  | save updates => merged home tree updates
  | set name raw =>
    match coerceByName name raw with
    | .error error => (.error error, [])
    | .ok value => merged home tree [(name, value)]
  | reset => cleared home tree

theorem attempt_eq_write (saving : Saving) (home : Home) (tree : FileTree) :
    saving.attempt home tree = write home tree (saving.step home tree) := by
  cases saving with
  | save updates => rfl
  | reset => rfl
  | set name raw =>
    rw [attempt, step, store]
    cases coerceByName name raw with
    | error error => rfl
    | ok value =>
      dsimp only
      rw [Settings.save]
      cases (write home tree (merged home tree [(name, value)])) with
      | mk result after log => cases result <;> rfl

end Saving

/-! ### What is written -/

/-- The document that is read is the one that the file counts as. -/
theorem eq_found_of_readDocument (read : (readDocument home tree).1 = .ok document) :
    document = found home tree := by
  have asked (failure : Failure) : tree.look home.file ≠ .error failure := by
    intro stopped
    cases read.symm.trans (readDocument_of_look stopped)
  have decodes : tree.Decodes home.file := by
    intro flaw undecodable
    cases read.symm.trans (readDocument_of_encoding undecodable)
  have whole (cause : Toml.Mishap) : ¬Breaks home tree cause := by
    intro breaks
    cases read.symm.trans (readDocument_of_breaks breaks)
  rw [readDocument_eq_found asked decodes whole] at read
  exact (Except.ok.inj read).symm

theorem merged_eq_ok {updates : Toml.Document}
    (merges : (merged home tree updates).1 = .ok dumped) :
    (readDocument home tree).1 = .ok (found home tree) ∧
      ∃ value, dumped = (found home tree).put sectionName value := by
  rw [merged] at merges
  split at merges
  · contradiction
  · rename_i document log read
    have same := eq_found_of_readDocument (congrArg Prod.fst read)
    split at merges
    · contradiction
    · rw [read, ← same]
      exact ⟨rfl, _, (Except.ok.inj merges).symm⟩

theorem cleared_eq_ok (clears : (cleared home tree).1 = .ok dumped) :
    (readDocument home tree).1 = .ok (found home tree) ∧
      dumped = (found home tree).erase sectionName := by
  rw [cleared] at clears
  split at clears
  · contradiction
  · rename_i document log read
    rw [read, ← eq_found_of_readDocument (congrArg Prod.fst read)]
    exact ⟨rfl, (Except.ok.inj clears).symm⟩

/-- Whatever the call, the file was read, and the document is outside of the section what the file
counts as. -/
theorem Saving.step_eq_ok {saving : Saving} (given : (saving.step home tree).1 = .ok dumped) :
    (readDocument home tree).1 = .ok (found home tree) ∧
      ∀ path, Outside path →
        Toml.view path dumped = Toml.view path (found home tree) := by
  have merges {updates : Toml.Document} (given : (merged home tree updates).1 = .ok dumped) :
      (readDocument home tree).1 = .ok (found home tree) ∧
        ∀ path, Outside path →
          Toml.view path dumped = Toml.view path (found home tree) := by
    obtain ⟨read, value, rfl⟩ := merged_eq_ok given
    exact ⟨read, fun path outside => view_put_outside _ _ outside⟩
  cases saving with
  | save updates => exact merges given
  | reset =>
    obtain ⟨read, rfl⟩ := cleared_eq_ok given
    exact ⟨read, fun path outside => view_erase_outside _ outside⟩
  | set name raw =>
    rw [step] at given
    split at given
    · contradiction
    · exact merges given

/-- A call that succeeds has given the writer a document, and has written it. -/
theorem Saving.holds_of_done {saving : Saving}
    (done : (saving.attempt home tree).result = .ok ())
    (readsBack : ∀ dumped, (saving.step home tree).1 = .ok dumped → ReadsBack home.library dumped) :
    ∃ dumped read, (saving.step home tree).1 = .ok dumped ∧ Agrees read dumped ∧
      Holds home (saving.attempt home tree).tree read := by
  rw [attempt_eq_write] at done ⊢
  cases given : saving.step home tree with
  | mk answer log =>
    rw [given] at done readsBack
    cases answer with
    | error error => contradiction
    | ok dumped =>
      rcases write_cases home (readsBack dumped rfl) tree log with
        ⟨error, failed, _⟩ | ⟨_, read, agrees, held⟩
      · rw [failed] at done
        contradiction
      · exact ⟨dumped, read, rfl, agrees, held⟩

/-! ### What stays of the file -/

/-- The file is text, but no document. -/
def Malformed (home : Home) (tree : FileTree) : Prop :=
  ∃ text, tree.readText home.file = .ok text ∧ home.library.read text = .error .malformed

theorem Holds.found (holds : Holds home tree document) : found home tree = document :=
  (eq_found_of_readDocument (congrArg Prod.fst holds.readDocument)).symm

theorem Malformed.found (malformed : Malformed home tree) : found home tree = [] := by
  obtain ⟨text, read, wrong⟩ := malformed
  simp only [Settings.found, read, wrong]
  rfl

/-- A file that holds a document is not malformed. -/
theorem Holds.not_malformed (holds : Holds home tree document) : ¬Malformed home tree := by
  intro ⟨text, read, wrong⟩
  rcases holds with ⟨missing, _⟩ | ⟨shown, same, parsed⟩
  · obtain ⟨entry, there⟩ := FileTree.look_of_readText read
    cases missing.symm.trans there
  · rw [read] at same
    rw [Except.ok.inj same, parsed] at wrong
    contradiction

/-- A file that was read holds a document or is malformed. -/
theorem holds_or_malformed {bytes : Bytes} (present : tree.read home.file = .ok bytes)
    (read : (readDocument home tree).1 = .ok document) :
    (∃ document, Holds home tree document) ∨ Malformed home tree := by
  cases decoded : Utf8.decodeLines bytes with
  | error flaw =>
    rw [readDocument_of_encoding (FileTree.readText_eq_encoding.mpr ⟨bytes, present, decoded⟩)]
      at read
    contradiction
  | ok text =>
    have shown := FileTree.readText_eq_ok.mpr ⟨bytes, present, decoded⟩
    cases parsed : home.library.read text with
    | ok document => exact .inl ⟨document, .inr ⟨text, shown, parsed⟩⟩
    | error error =>
      cases error with
      | malformed => exact .inr ⟨text, shown, parsed⟩
      | failed cause =>
        rw [readDocument_of_breaks ⟨text, shown, parsed⟩] at read
        contradiction

/-- Saving keeps what was read, and only that. If the call succeeds and its document is read back,
the file holds a document that is as before outside of the section where the file was missing or
read; but where the file was malformed, it has other content, with nothing outside of the section.
On every other file the call fails. -/
theorem saving_keeps_what_was_read {home : Home} {tree : FileTree} {saving : Saving}
    (done : (saving.attempt home tree).result = .ok ())
    (readsBack : ∀ dumped, (saving.step home tree).1 = .ok dumped → ReadsBack home.library dumped) :
    ∃ read, Holds home (saving.attempt home tree).tree read ∧
      (∀ document, Holds home tree document → ∀ path, Outside path →
        Toml.view path read = Toml.view path document) ∧
      (Malformed home tree →
        (saving.attempt home tree).tree.readText home.file ≠ tree.readText home.file ∧
          ∀ step rest, step ≠ .entry sectionName → Toml.view (step :: rest) read = none) ∧
      (∀ bytes, tree.read home.file = .ok bytes →
        (∃ document, Holds home tree document) ∨ Malformed home tree) := by
  obtain ⟨dumped, read, given, agrees, held⟩ := Saving.holds_of_done done readsBack
  obtain ⟨counted, unchanged⟩ := Saving.step_eq_ok given
  have outside (path : List Toml.Step) (apart : Outside path) :
      Toml.view path read = Toml.view path (found home tree) := by
    calc
      _ = Toml.view path dumped := agrees.view path
      _ = Toml.view path (found home tree) := unchanged path apart
  refine ⟨read, held, ?_, ?_, fun bytes present => holds_or_malformed present counted⟩
  · intro document holds path apart
    rw [outside path apart, holds.found]
  · intro malformed
    constructor
    · intro same
      obtain ⟨text, before, wrong⟩ := malformed
      exact held.not_malformed ⟨text, same.trans before, wrong⟩
    · intro step rest apart
      have head : Outside (step :: rest) := fun same => apart (Option.some.inj same)
      rw [outside _ head, malformed.found]
      cases step <;> rfl

/-- A file tree with nothing but the settings file. -/
def holding (content : Text) : FileTree := FileTree.addFile {} flowHome.file.parts content.toUtf8

def Saving.darken : Saving := .set "ink_theme".toList "dark".toList

set_option maxRecDepth 2000 in
/-- A value is stored beside another section. -/
theorem saving_keeps_other_section :
    let attempt := Saving.darken.attempt flowHome (holding "[other]\nx = 1\n".toList)
    attempt.result = .ok () ∧
      ∃ read, Holds flowHome attempt.tree read ∧
        Toml.view [.entry "other".toList, .entry "x".toList] read = some (.integer 1) := by
  let tree := holding "[other]\nx = 1\n".toList
  let other : Toml.Document := [("other".toList, .table [("x".toList, .integer 1)])]
  let darkened : Toml.Document := storing other "ink_theme".toList (.text "dark".toList)
  have held : Holds flowHome tree other :=
    .inr ⟨"[other]\nx = 1\n".toList, ok_of_toOption (by decide +kernel), rfl⟩
  have done : (Saving.darken.attempt flowHome tree).result = .ok () :=
    ok_of_toOption (by decide +kernel)
  have readsBack : ∀ dumped, (Saving.darken.step flowHome tree).1 = .ok dumped →
      ReadsBack flowHome.library dumped := by
    have given : Saving.darken.step flowHome tree = (.ok darkened, []) :=
      merged_of_holds held (.inl rfl) _ _
    intro dumped same
    rw [given] at same
    rw [← Except.ok.inj same]
    exact ⟨"[other]\nx = 1\n\n[flowdsl]\nink_theme = \"dark\"\n".toList, darkened,
      ok_of_toOption (by decide +kernel), rfl, .refl darkened⟩
  obtain ⟨read, after, kept, _, _⟩ := saving_keeps_what_was_read done readsBack
  exact ⟨done, read, after, kept other held _ (by decide)⟩

/-- A call that succeeds on a malformed file overwrites it. -/
theorem malformed_overwritten :
    Malformed flowHome (holding "keep =\n".toList) ∧
      (Saving.darken.attempt flowHome (holding "keep =\n".toList)).result = .ok () ∧
      (Saving.darken.attempt flowHome (holding "keep =\n".toList)).tree =
        holding "[flowdsl]\nink_theme = \"dark\"\n".toList := by
  refine ⟨⟨"keep =\n".toList, ok_of_toOption (by decide +kernel), rfl⟩, ?_, by decide +kernel⟩
  exact ok_of_toOption (by decide +kernel)

end Flowchart.Settings
