import Flowchart.Proofs.FileTree
import Flowchart.Proofs.Table
import Flowchart.Settings.Store
import Flowchart.Toml.Flat

/-!
What loading makes of the settings file: for every key the value that the entry under its name
stands for, or the default. A value that was made for a key stands for itself, so storing it and
loading it again gives it back.
-/
namespace Flowchart.Settings

variable {key other : Key} {raw name : Text} {home : Home} {tree : FileTree}
  {document : Toml.Document}

/-! ### Values of keys -/

/-- Putting a text sets one key to what it stands for there, if it stands for anything. -/
theorem get_put (settings : Settings) (key : Key) (raw : Text) (other : Key) :
    ((settings.put key raw).toOption.getD settings).get other =
      if key = other then (coerce other raw).toOption.getD (settings.get other)
      else settings.get other := by
  cases key with
  | outputSuffix | inkTheme | inkBackground => cases other <;> rfl
  | logLevel =>
    rw [Settings.put]
    cases other with
    | logLevel => rw [if_pos rfl, coerce]; cases level? raw <;> rfl
    | _ => cases level? raw <;> rfl
  | watchInterval =>
    rw [Settings.put]
    cases other with
    | watchInterval => rw [if_pos rfl, coerce]; cases number? raw <;> rfl
    | _ => cases number? raw <;> rfl

theorem Key.ofName?_eq_some : Key.ofName? name = some key ↔ name = key.name := by
  constructor
  · intro found
    have hit := List.find?_some (p := fun known : Key => known.name == name) found
    exact (beq_iff_eq.mp hit).symm
  · rintro rfl
    exact Key.ofName?_name key

theorem withDot_withDot (suffix : Text) : withDot (withDot suffix) = withDot suffix := by
  have dotted : (withDot suffix).head? = some '.' := by
    rw [withDot]
    split
    · assumption
    · rfl
  rw [withDot, if_pos dotted]

theorem level?_name (level : Log.Level) : level? level.name = .ok level := by
  cases level <;> decide +kernel

/-- A value of the kind of a key stands for itself; for a number, if its numeral is read back. -/
theorem coerce_plain {value : Toml.Value} (given : coerce key raw = .ok value)
    (readable : ∀ number, value = .decimal number →
      Decimal.read? (Decimal.text 2 number) = some number) :
    coerce key value.plain = .ok value := by
  cases key with
  | inkTheme | inkBackground =>
    cases given
    rfl
  | outputSuffix =>
    cases given
    exact congrArg (Except.ok ∘ Toml.Value.text) (withDot_withDot raw)
  | logLevel =>
    obtain ⟨level, -, rfl⟩ := ok_of_map given
    simp only [coerce, Toml.Value.plain, level?_name]
    rfl
  | watchInterval =>
    obtain ⟨number, -, rfl⟩ := ok_of_map given
    simp only [coerce, Toml.Value.plain, Toml.Value.quoted, number?, readable number rfl]
    rfl

/-! ### Loading -/

/-- The value in force for a key, given the document: the one that the entry stands for, or else the
default. -/
def inForce (document : Toml.Document) (key : Key) : Toml.Value :=
  let standard : Settings := {}
  (((sectionOf document).get? key.name).bind fun value =>
    (coerce key value.plain).toOption).getD (standard.get key)

theorem Key.name_inj : other.name = key.name ↔ other = key := by
  cases other <;> cases key <;> decide

theorem get_takeEntry (home : Home) (settings : Settings) (name : Text) (value : Toml.Value)
    (key : Key) :
    (takeEntry home settings name value).1.get key =
      if name = key.name then (coerce key value.plain).toOption.getD (settings.get key)
      else settings.get key := by
  rw [takeEntry]
  split
  · rename_i unknown
    rw [if_neg]
    rintro rfl
    rw [Key.ofName?_name] at unknown
    contradiction
  · rename_i other known
    have puts := get_put settings other value.plain key
    rw [Key.ofName?_eq_some.mp known]
    simp only [Key.name_inj]
    cases put : settings.put other value.plain with
    | ok after =>
      rw [put] at puts
      exact puts
    | error refusal =>
      rw [put] at puts
      exact puts

/-- One entry after the other is taken; where no two have one key, each key gets its own. -/
theorem get_foldl_takeEntry (home : Home) {entries : Toml.Document}
    (distinct : entries.keys.Nodup) (start : Settings × List Log.Entry) (key : Key) :
    (entries.foldl
        (fun (settings, log) (name, value) =>
          let (settings, more) := takeEntry home settings name value
          (settings, log ++ more))
        start).1.get key =
      ((entries.get? key.name).bind fun value =>
        (coerce key value.plain).toOption).getD (start.1.get key) := by
  induction entries generalizing start with
  | nil => rfl
  | cons first rest ih =>
    obtain ⟨name, value⟩ := first
    obtain ⟨fresh, later⟩ := List.nodup_cons.mp distinct
    rw [List.foldl_cons, ih later]
    dsimp only
    rw [get_takeEntry, Table.get?]
    by_cases here : name = key.name
    · have none : Table.get? rest key.name = none := Table.get?_of_not_mem (here ▸ fresh)
      rw [if_pos here, if_pos here, none]
      rfl
    · rw [if_neg here, if_neg here]

/-- What a file tree holds in place of the settings file: nothing, or a text that the document is
read from. -/
def Holds (home : Home) (tree : FileTree) (document : Toml.Document) : Prop :=
  tree.look home.file = .ok none ∧ document = [] ∨
    ∃ text, tree.readText home.file = .ok text ∧ home.library.read text = .ok document

theorem Holds.readDocument (holds : Holds home tree document) :
    readDocument home tree = (.ok document, []) := by
  rw [Settings.readDocument]
  rcases holds with ⟨missing, rfl⟩ | ⟨text, read, parsed⟩
  · rw [missing]
  · obtain ⟨entry, there⟩ := FileTree.look_of_readText read
    simp only [there, read, parsed]

theorem Holds.distinct (holds : Holds home tree document) : Toml.Distinct document := by
  rcases holds with ⟨missing, rfl⟩ | ⟨text, read, parsed⟩
  · exact Toml.distinct_nil
  · exact home.library.distinct parsed

/-- A home for settings, with a library. -/
def flowHome : Home := ⟨⟨[], ["flowdsl_home".toList]⟩, Toml.flat⟩

theorem nodup_sectionOf (distinct : Toml.Distinct document) : (sectionOf document).keys.Nodup := by
  rw [sectionOf]
  split
  · rename_i entries found
    exact distinct sectionName _ found entries rfl
  · exact List.nodup_nil

/-- Loading gives every key the value in force in the document that is read. -/
theorem load_of_readDocument (read : (readDocument home tree).1 = .ok document)
    (distinct : Toml.Distinct document) :
    ∃ settings, (load home tree).1 = .ok settings ∧
      ∀ key, settings.get key = inForce document key := by
  refine ⟨(takeSection home (sectionOf document)).1, ?_, ?_⟩
  · rw [Settings.load]
    split
    · rename_i error log failed
      rw [failed] at read
      contradiction
    · rename_i held log done
      rw [done] at read
      rw [Except.ok.inj read]
  · exact get_foldl_takeEntry home (nodup_sectionOf distinct) ({}, [])

theorem Holds.load (holds : Holds home tree document) :
    ∃ settings, (load home tree).1 = .ok settings ∧
      ∀ key, settings.get key = inForce document key :=
  load_of_readDocument (congrArg Prod.fst holds.readDocument) holds.distinct

theorem Holds.lookup (holds : Holds home tree document) (key : Key) :
    (lookup home tree key.name).1 = .ok (inForce document key) := by
  obtain ⟨settings, loaded, got⟩ := holds.load
  have known : keyOf key.name = .ok key := by
    rw [keyOf, Key.ofName?_name]
  rw [Settings.lookup, known]
  dsimp only
  rw [loaded, ← got key]
  rfl

end Flowchart.Settings
