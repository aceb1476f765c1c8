import Flowchart.Proofs.Retained
import Flowchart.Proofs.Settings.Load

/-!
Loading from a settings file with any content. A file that is missing or malformed counts as empty,
and a value that a key does not admit as absent. Bytes that are no text are not caught: they end
loading, as does a library that fails on a text otherwise than by calling it malformed.
-/
namespace Flowchart.Settings

variable {key : Key} {raw : Text} {value : Toml.Value} {home : Home} {tree : FileTree}
  {flaw : Utf8.Error} {cause : Toml.Mishap}

/-! ### Values that keys admit -/

/-- The kind of a key: the name of a level, a text that starts with a dot, a number, any text. -/
def Admits : Key → Toml.Value → Prop
  | .logLevel, value => ∃ level : Log.Level, value = .text level.name
  | .outputSuffix, value => ∃ rest, value = .text ('.' :: rest)
  | .watchInterval, value => ∃ number, value = .decimal number
  | .inkTheme, value | .inkBackground, value => ∃ content, value = .text content

theorem withDot_eq_cons (suffix : Text) : ∃ rest, withDot suffix = '.' :: rest := by
  rw [withDot]
  split
  · rename_i dotted
    obtain ⟨rest, same⟩ := List.head?_eq_some_iff.mp dotted
    exact ⟨rest, same⟩
  · exact ⟨suffix, rfl⟩

theorem admits_of_coerce (given : coerce key raw = .ok value) : Admits key value := by
  cases key with
  | logLevel =>
    obtain ⟨level, -, same⟩ := ok_of_map given
    exact ⟨level, same.symm⟩
  | outputSuffix =>
    obtain ⟨rest, dotted⟩ := withDot_eq_cons raw
    exact ⟨rest, by rw [← dotted, Except.ok.inj given]⟩
  | watchInterval =>
    obtain ⟨number, -, same⟩ := ok_of_map given
    exact ⟨number, same.symm⟩
  | inkTheme | inkBackground => exact ⟨raw, (Except.ok.inj given).symm⟩

theorem admits_default (key : Key) : Admits key (({} : Settings).get key) := by
  cases key <;> exact ⟨_, rfl⟩

/-- Whatever the document holds, the value in force is of the kind of its key. -/
theorem admits_inForce (document : Toml.Document) (key : Key) :
    Admits key (inForce document key) := by
  rw [inForce]
  cases taken : ((sectionOf document).get? key.name).bind fun value =>
      (coerce key value.plain).toOption with
  | none => exact admits_default key
  | some value =>
    obtain ⟨entry, _, given⟩ := Option.bind_eq_some_iff.mp taken
    exact admits_of_coerce (ok_of_toOption given)

/-! ### What the file counts as -/

/-- The document that the settings file counts as: the empty one, unless it can be read. -/
def found (home : Home) (tree : FileTree) : Toml.Document :=
  match tree.readText home.file with
  | .ok text => (home.library.read text).toOption.getD []
  | .error _ => []

theorem distinct_found (home : Home) (tree : FileTree) : Toml.Distinct (found home tree) := by
  rw [found]
  split
  · rename_i text _
    cases parsed : home.library.read text with
    | ok document => exact home.library.distinct parsed
    | error _ => exact Toml.distinct_nil
  · exact Toml.distinct_nil

/-- The library fails on the text of the file. -/
def Breaks (home : Home) (tree : FileTree) (cause : Toml.Mishap) : Prop :=
  ∃ text, tree.readText home.file = .ok text ∧ home.library.read text = .error (.failed cause)

theorem readDocument_of_encoding
    (undecodable : tree.readText home.file = .error (.encoding flaw)) :
    (readDocument home tree).1 = .error (.failure (.encoding flaw)) := by
  obtain ⟨bytes, read, _⟩ := FileTree.readText_eq_encoding.mp undecodable
  obtain ⟨entry, there⟩ := FileTree.look_of_read read
  simp only [readDocument, there, undecodable]

theorem readDocument_of_breaks (breaks : Breaks home tree cause) :
    (readDocument home tree).1 = .error (.mishap cause) := by
  obtain ⟨text, read, broken⟩ := breaks
  obtain ⟨entry, there⟩ := FileTree.look_of_readText read
  simp only [readDocument, there, read, broken]

theorem readDocument_of_look {failure : Failure}
    (stopped : tree.look home.file = .error failure) :
    (readDocument home tree).1 = .error (.failure failure) := by
  simp only [readDocument, stopped]

/-- Everything else in place of the file is caught. -/
theorem readDocument_eq_found (asked : ∀ failure, tree.look home.file ≠ .error failure)
    (decodes : tree.Decodes home.file) (whole : ∀ cause, ¬Breaks home tree cause) :
    (readDocument home tree).1 = .ok (found home tree) := by
  rw [readDocument, found]
  cases looked : tree.look home.file with
  | error failure => exact absurd looked (asked failure)
  | ok entry? =>
    cases entry? with
    | none =>
      cases read : tree.readText home.file with
      | ok text => exact absurd read (FileTree.readText_of_look looked)
      | error _ => rfl
    | some entry =>
      have nameable := FileTree.nameable_of_find (FileTree.look_eq_some.mp looked)
      cases read : tree.readText home.file with
      | error failure =>
        obtain ⟨error, rfl⟩ := decodes.error nameable.whole read
        rfl
      | ok text =>
        dsimp only
        cases parsed : home.library.read text with
        | ok document => rfl
        | error error =>
          cases error with
          | malformed => rfl
          | failed cause => exact absurd ⟨text, read, parsed⟩ (whole cause)

/-! ### Loading -/

/-- The file system can be asked for the file, and there is none, or one with the bytes of a text
that the library reads or calls malformed. -/
structure Legible (home : Home) (tree : FileTree) : Prop where
  asked : ∀ failure, tree.look home.file ≠ .error failure
  text : ∀ bytes, tree.read home.file = .ok bytes → ∃ text, bytes = Text.toUtf8 text ∧
    ∀ cause, home.library.read (Text.normalizeBreaks text) ≠ .error (.failed cause)

theorem legible_iff : Legible home tree ↔
    (∀ failure, tree.look home.file ≠ .error failure) ∧ tree.Decodes home.file ∧
      ∀ cause, ¬Breaks home tree cause := by
  constructor
  · intro legible
    refine ⟨legible.asked, fun flaw undecodable => ?_, fun cause breaks => ?_⟩
    · obtain ⟨bytes, read, stops⟩ := FileTree.readText_eq_encoding.mp undecodable
      obtain ⟨text, rfl, _⟩ := legible.text bytes read
      rw [Utf8.decodeLines_toUtf8] at stops
      contradiction
    · obtain ⟨shown, decoded, broken⟩ := breaks
      obtain ⟨bytes, read, same⟩ := FileTree.readText_eq_ok.mp decoded
      obtain ⟨text, rfl, whole⟩ := legible.text bytes read
      rw [Utf8.decodeLines_toUtf8] at same
      exact whole cause (Except.ok.inj same ▸ broken)
  · rintro ⟨asked, decodes, whole⟩
    refine ⟨asked, fun bytes read => ?_⟩
    cases decoded : Utf8.decodeLines bytes with
    | error flaw =>
      exact absurd (FileTree.readText_eq_encoding.mpr ⟨bytes, read, decoded⟩) (decodes flaw)
    | ok shown =>
      obtain ⟨text, spelled, same⟩ := Utf8.decodeLines_eq_ok.mp decoded
      refine ⟨text, spelled, fun cause broken => whole cause ⟨shown, ?_, same ▸ broken⟩⟩
      exact FileTree.readText_eq_ok.mpr ⟨bytes, read, decoded⟩

/-- What ends reading the document ends loading. -/
theorem load_of_error {error : Error} (failed : (readDocument home tree).1 = .error error) :
    (load home tree).1 = .error error := by
  rw [load]
  split
  · rename_i stopped log read
    rw [read] at failed
    exact congrArg Except.error (Except.error.inj failed)
  · rename_i document log read
    rw [read] at failed
    contradiction

/-- Loading gives every key a value of its kind, the one in force in what the file counts as; unless
the file has bytes that are no text, or the library fails on its text. -/
theorem load_succeeds_iff (home : Home) (tree : FileTree) :
    (∃ settings, (load home tree).1 = .ok settings ∧ ∀ key,
        Admits key (settings.get key) ∧ settings.get key = inForce (found home tree) key) ↔
      Legible home tree := by
  rw [legible_iff]
  constructor
  · intro ⟨settings, loaded, _⟩
    refine ⟨fun failure stopped => ?_, fun flaw undecodable => ?_, fun cause breaks => ?_⟩
    · cases loaded.symm.trans (load_of_error (readDocument_of_look stopped))
    · cases loaded.symm.trans (load_of_error (readDocument_of_encoding undecodable))
    · cases loaded.symm.trans (load_of_error (readDocument_of_breaks breaks))
  · intro ⟨asked, decodes, whole⟩
    obtain ⟨settings, loaded, got⟩ :=
      load_of_readDocument (readDocument_eq_found asked decodes whole) (distinct_found home tree)
    refine ⟨settings, loaded, fun key => ⟨?_, got key⟩⟩
    rw [got key]
    exact admits_inForce (found home tree) key

/-- One byte that starts no character is enough: no settings are loaded, not even the defaults. -/
theorem load_fails_on_byte :
    let tree := FileTree.addFile {} flowHome.file.parts [0xFF]
    tree.read flowHome.file = .ok [0xFF] ∧
      (load flowHome tree).1 = .error (.failure (.encoding ⟨0, 1, 0xFF, .start⟩)) := by
  intro tree
  have read : tree.read flowHome.file = .ok [0xFF] := by decide +kernel
  have stops : Utf8.decodeLines [0xFF] = .error ⟨0, 1, 0xFF, .start⟩ := by
    rw [Utf8.decodeLines, Utf8.decode, Utf8.decodeFrom]
    rfl
  have undecodable := FileTree.readText_eq_encoding.mpr ⟨[0xFF], read, stops⟩
  exact ⟨read, load_of_error (readDocument_of_encoding undecodable)⟩

end Flowchart.Settings
