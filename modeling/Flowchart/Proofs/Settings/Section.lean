import Flowchart.Proofs.Settings.Load
import Flowchart.Proofs.Settings.Write
import Flowchart.Proofs.Toml.View

/-!
The section of the settings in the document around it. Storing a value and clearing the section
read the whole document and write all of it again. Where what is written is read back, each of them
either fails and changes nothing, or leaves a document that is as before outside of the section.
-/
namespace Flowchart.Settings

variable {home : Home} {tree : FileTree} {document read dumped : Toml.Document}
  {name raw : Text} {key : Key}

/-! ### Documents that are read back -/

/-- A document that is read as another one but for the order of tables. The entries of the section
also are shown alike, which an order inside of them could spoil. -/
structure Agrees (read document : Toml.Document) : Prop where
  view : ∀ path, Toml.view path read = Toml.view path document
  shown : ∀ name, ((sectionOf read).get? name).map (·.plain) =
    ((sectionOf document).get? name).map (·.plain)

theorem Agrees.refl (document : Toml.Document) : Agrees document document :=
  ⟨fun _ => rfl, fun _ => rfl⟩

/-- The library writes a document to a text from which it reads the document again. -/
def ReadsBack (library : Toml.Library) (document : Toml.Document) : Prop :=
  ∃ text read, library.write document = .ok text ∧
    library.read (Text.normalizeBreaks text) = .ok read ∧ Agrees read document

/-- Writing such a document either fails and changes nothing, or is followed by reading it. -/
theorem write_cases (home : Home) (back : ReadsBack home.library dumped) (tree : FileTree)
    (log : List Log.Entry) :
    (∃ error, (write home tree (.ok dumped, log)).result = .error error ∧
        (write home tree (.ok dumped, log)).tree = tree) ∨
      (write home tree (.ok dumped, log)).result = .ok () ∧
        ∃ read, Agrees read dumped ∧ Holds home (write home tree (.ok dumped, log)).tree read := by
  obtain ⟨text, read, written, parsed, agrees⟩ := back
  rw [write]
  split
  · rename_i after done
    obtain ⟨same, spelled, saved⟩ := writeDocument_eq_saved done
    rw [written] at spelled
    cases spelled
    exact .inr ⟨rfl, read, agrees, .inr ⟨_, FileTree.readText_save saved, parsed⟩⟩
  · rename_i after error stopped
    exact .inl ⟨error, rfl, writeDocument_eq_stopped written stopped⟩

/-! ### The section -/

/-- Nothing stands in place of the section, or a table. -/
def Sectioned (document : Toml.Document) : Prop :=
  document.get? sectionName = none ∨ ∃ entries, document.get? sectionName = some (.table entries)

theorem Agrees.sectioned (agrees : Agrees read document) (sectioned : Sectioned document) :
    Sectioned read := by
  rcases sectioned with missing | table
  · exact .inl (Toml.view_eq_none.mp ((agrees.view _).trans (Toml.view_eq_none.mpr missing)))
  · exact .inr (Toml.view_eq_table.mp ((agrees.view _).trans (Toml.view_eq_table.mpr table)))

theorem Agrees.inForce (agrees : Agrees read document) (key : Key) :
    inForce read key = inForce document key := by
  have bound {held? : Option Toml.Value} :
      (held?.bind fun value => (coerce key value.plain).toOption) =
        (held?.map (·.plain)).bind fun raw => (coerce key raw).toOption := by
    cases held? <;> rfl
  rw [Settings.inForce, Settings.inForce, bound, bound, agrees.shown]

theorem view_section (document : Toml.Document) (name : Text) (rest : List Toml.Step) :
    Toml.view (.entry sectionName :: .entry name :: rest) document =
      Toml.view (.entry name :: rest) (sectionOf document) := by
  rw [sectionOf]
  cases found : document.get? sectionName with
  | none => exact Toml.view_of_none found _
  | some value =>
    rw [Toml.view_of_some found]
    cases value with
    | table entries => rfl
    | _ => rfl

theorem updated_section (sectioned : Sectioned document) (updates : Toml.Document) :
    updated updates ((document.get? sectionName).getD (.table [])) =
      .ok (.table (Table.merge (sectionOf document) updates)) := by
  rcases sectioned with missing | ⟨entries, found⟩
  · rw [sectionOf, missing]
    rfl
  · rw [sectionOf, found]
    rfl

theorem sectionOf_put (document entries : Toml.Document) :
    sectionOf (document.put sectionName (.table entries)) = entries := by
  rw [sectionOf, Table.get?_put, if_pos rfl]

theorem sectionOf_erase (document : Toml.Document) :
    sectionOf (document.erase sectionName) = [] := by
  rw [sectionOf, Table.get?_erase, if_pos rfl]

/-- The document after a value was stored. -/
def storing (document : Toml.Document) (name : Text) (value : Toml.Value) : Toml.Document :=
  document.put sectionName (.table ((sectionOf document).put name value))

theorem merged_of_holds (holds : Holds home tree document) (sectioned : Sectioned document)
    (name : Text) (value : Toml.Value) :
    merged home tree [(name, value)] = (.ok (storing document name value), []) := by
  rw [merged, holds.readDocument]
  dsimp only
  rw [updated_section sectioned]
  rfl

theorem cleared_of_holds (holds : Holds home tree document) :
    cleared home tree = (.ok (document.erase sectionName), []) := by
  rw [cleared, holds.readDocument]

theorem inForce_storing (document : Toml.Document) (other : Key) {value : Toml.Value}
    (given : coerce key value.plain = .ok value) :
    inForce (storing document key.name value) other =
      if key = other then value else inForce document other := by
  rw [inForce, storing, sectionOf_put, Table.get?_put]
  simp only [Key.name_inj]
  split
  · rename_i same
    subst same
    rw [Option.bind_some, given]
    rfl
  · rfl

theorem inForce_erase (document : Toml.Document) (key : Key) :
    inForce (document.erase sectionName) key = (({} : Settings).get key) := by
  rw [inForce, sectionOf_erase]
  rfl

/-! ### What stands outside of a change -/

/-- A path that does not lead into the section. -/
def Outside (path : List Toml.Step) : Prop := path.head? ≠ some (.entry sectionName)

instance (path : List Toml.Step) : Decidable (Outside path) := inferInstanceAs (Decidable (_ ≠ _))

theorem Outside.view_congr {other : Toml.Document} {path : List Toml.Step} (outside : Outside path)
    (same : ∀ name, name ≠ sectionName → other.get? name = document.get? name) :
    Toml.view path other = Toml.view path document := by
  cases path with
  | nil => rfl
  | cons step rest =>
    cases step with
    | item index => rfl
    | entry name =>
      refine Toml.view_congr (same name ?_) rest
      rintro rfl
      exact outside rfl

theorem view_put_outside (document : Toml.Document) (value : Toml.Value)
    {path : List Toml.Step} (outside : Outside path) :
    Toml.view path (document.put sectionName value) = Toml.view path document := by
  refine outside.view_congr fun name apart => ?_
  rw [Table.get?_put, if_neg apart.symm]

theorem view_erase_outside (document : Toml.Document) {path : List Toml.Step}
    (outside : Outside path) :
    Toml.view path (document.erase sectionName) = Toml.view path document := by
  refine outside.view_congr fun name apart => ?_
  rw [Table.get?_erase, if_neg apart.symm]

theorem view_storing_unknown (document : Toml.Document) (key : Key) (value : Toml.Value)
    (unknown : Key.ofName? name = none) (rest : List Toml.Step) :
    Toml.view (.entry sectionName :: .entry name :: rest) (storing document key.name value) =
      Toml.view (.entry sectionName :: .entry name :: rest) document := by
  have apart : key.name ≠ name := by
    rintro rfl
    rw [Key.ofName?_name] at unknown
    contradiction
  rw [view_section, view_section, storing, sectionOf_put]
  refine Toml.view_congr ?_ rest
  rw [Table.get?_put, if_neg apart]

/-! ### Storing and clearing -/

theorem coerceByName_eq_ok {value : Toml.Value} (given : coerceByName name raw = .ok value) :
    ∃ key : Key, name = key.name ∧ coerce key raw = .ok value := by
  obtain ⟨key, known, coerced⟩ := ok_of_bind given
  rw [keyOf] at known
  split at known
  · rename_i found named
    cases known
    exact ⟨key, Key.ofName?_eq_some.mp named, ok_of_mapError coerced⟩
  · contradiction

/-- Storing a value either fails and changes nothing, or the file holds the document with the value
afterwards. -/
theorem store_cases (holds : Holds home tree document) (sectioned : Sectioned document)
    (readsBack : ∀ dumped, toStore? home tree name raw = some dumped →
      ReadsBack home.library dumped)
    (readable : ∀ number, coerceByName name raw = .ok (.decimal number) →
      Decimal.read? (Decimal.text 2 number) = some number) :
    (∃ error, (store home tree name raw).result = .error error ∧
        (store home tree name raw).tree = tree) ∨
      ∃ (key : Key) (value : Toml.Value) (read : Toml.Document), name = key.name ∧
        coerce key value.plain = .ok value ∧ (store home tree name raw).result = .ok value ∧
        Agrees read (storing document key.name value) ∧
        Holds home (store home tree name raw).tree read := by
  cases given : coerceByName name raw with
  | error error =>
    rw [store, given]
    exact .inl ⟨error, rfl, rfl⟩
  | ok value =>
    obtain ⟨key, rfl, coerced⟩ := coerceByName_eq_ok given
    have merges := merged_of_holds holds sectioned key.name value
    have back : ReadsBack home.library (storing document key.name value) := by
      refine readsBack _ ?_
      rw [toStore?, given, Except.toOption, Option.bind_some, merges]
      rfl
    have plain : coerce key value.plain = .ok value := by
      refine coerce_plain coerced ?_
      rintro number rfl
      exact readable number given
    rw [store, given]
    dsimp only
    rw [save, merges]
    rcases write_cases home back tree [] with ⟨error, failed, same⟩ | ⟨done, read, agrees, held⟩
    · exact .inl ⟨error, by rw [failed]; rfl, same⟩
    · exact .inr ⟨key, value, read, rfl, plain, by rw [done]; rfl, agrees, held⟩

/-- Clearing the section either fails and changes nothing, or the file holds the document without
the section afterwards. -/
theorem reset_cases (holds : Holds home tree document)
    (readsBack : ∀ dumped, toClear? home tree = some dumped → ReadsBack home.library dumped) :
    (∃ error, (reset home tree).result = .error error ∧ (reset home tree).tree = tree) ∨
      (reset home tree).result = .ok () ∧
        ∃ read, Agrees read (document.erase sectionName) ∧
          Holds home (reset home tree).tree read := by
  have erased := cleared_of_holds holds
  have back : ReadsBack home.library (document.erase sectionName) := by
    refine readsBack _ ?_
    rw [toClear?, erased]
    rfl
  rw [reset, erased]
  exact write_cases home back tree []

end Flowchart.Settings
