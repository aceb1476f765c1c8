import Flowchart.Proofs.FileTree
import Flowchart.Settings.Store

/-!
Writing the settings file. An attempt that does not get as far as making up the text leaves the file
tree as it was; one that succeeds has saved the text of the document.
-/
namespace Flowchart.Settings

variable {home : Home} {tree after : FileTree} {document : Toml.Document} {text : Text}

/-- The document that storing a value gives the writer. -/
def toStore? (home : Home) (tree : FileTree) (name raw : Text) : Option Toml.Document :=
  (coerceByName name raw).toOption.bind fun value => (merged home tree [(name, value)]).1.toOption

/-- The document that clearing the section gives the writer. -/
def toClear? (home : Home) (tree : FileTree) : Option Toml.Document :=
  (cleared home tree).1.toOption

/-- All that an attempt can come to: nothing is changed, the text of the document is saved, or there
is no text and the file is left empty. -/
theorem writeDocument_cases (home : Home) (tree : FileTree) (document : Toml.Document) :
    (∃ failure, writeDocument home tree document = (tree, some (.failure failure))) ∨
      (∃ after text, writeDocument home tree document = (after, none) ∧
        home.library.write document = .ok text ∧
        (tree.makeDirectories (tree.resolve home.directory)).save home.file text.toUtf8 =
          .ok after) ∨
      ∃ after cause, writeDocument home tree document = (after, some (.mishap cause)) ∧
        home.library.write document = .error cause := by
  simp only [writeDocument]
  split
  · exact .inl ⟨_, rfl⟩
  split
  · exact .inl ⟨_, rfl⟩
  rename_i after saved
  cases written : home.library.write document with
  | error cause => exact .inr (.inr ⟨after, cause, rfl, rfl⟩)
  | ok text =>
    rw [written] at saved
    exact .inr (.inl ⟨after, text, rfl, rfl, saved⟩)

theorem writeDocument_eq_saved (done : writeDocument home tree document = (after, none)) :
    ∃ text, home.library.write document = .ok text ∧
      (tree.makeDirectories (tree.resolve home.directory)).save home.file text.toUtf8 =
        .ok after := by
  rcases writeDocument_cases home tree document with
    ⟨failure, same⟩ | ⟨reached, text, same, written, saved⟩ | ⟨reached, cause, same, _⟩
  · cases done.symm.trans same
  · cases done.symm.trans same
    exact ⟨text, written, saved⟩
  · cases done.symm.trans same

theorem writeDocument_eq_stopped {error : Error}
    (written : home.library.write document = .ok text)
    (stopped : writeDocument home tree document = (after, some error)) : after = tree := by
  rcases writeDocument_cases home tree document with
    ⟨failure, same⟩ | ⟨reached, text, same, _⟩ | ⟨reached, cause, same, refused⟩
  · cases stopped.symm.trans same
    rfl
  · cases stopped.symm.trans same
  · rw [written] at refused
    cases refused

/-- Only the settings file changes. -/
theorem content?_writeDocument (done : writeDocument home tree document = (after, none))
    {place : Location} (apart : place ≠ tree.resolve home.file) :
    after.content? place = tree.content? place := by
  obtain ⟨text, written, saved⟩ := writeDocument_eq_saved done
  have elsewhere : place ≠
      (tree.makeDirectories (tree.resolve home.directory)).resolve home.file := by
    rwa [FileTree.resolve_makeDirectories]
  rw [FileTree.content?_save saved elsewhere, FileTree.content?_makeDirectories]

end Flowchart.Settings
