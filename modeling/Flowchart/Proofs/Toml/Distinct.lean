import Flowchart.Proofs.Except
import Flowchart.Toml.Reader

/-!
Reading writes into a document and never next to what is there, so no table of a document that was
read has two entries with one key.
-/
namespace Flowchart.Toml

variable {entries after : Document} {name : Text} {value : Value}

/-- What reading does to a document, and to a table in it: nothing, an entry is written, or a table
in it is changed that is there or is made for the purpose. -/
inductive Writes : Document → Document → Prop
  | same (entries : Document) : Writes entries entries
  | put (entries : Document) (name : Text) {value : Value} (plain : value.HasDistinctKeys) :
    Writes entries (entries.put name value)
  | under {entries : Document} (name : Text) {inner changed : Document}
    (held : entries.get? name = some (.table inner) ∨ inner = []) (change : Writes inner changed) :
    Writes entries (entries.put name (.table changed))

theorem Value.hasDistinctKeys_nil : (Value.table []).HasDistinctKeys := by
  rintro entries ⟨⟩
  exact List.nodup_nil

theorem Writes.nodup (writes : Writes entries after) (distinct : entries.keys.Nodup) :
    after.keys.Nodup := by
  cases writes with
  | same => exact distinct
  | put => exact Table.nodup_keys_put distinct _ _
  | under => exact Table.nodup_keys_put distinct _ _

theorem Distinct.put (distinct : Distinct entries) (name : Text) (plain : value.HasDistinctKeys) :
    Distinct (entries.put name value) := by
  intro other held found
  rw [Table.get?_put] at found
  split at found
  · exact Option.some.inj found ▸ plain
  · exact distinct other held found

theorem Writes.distinct (writes : Writes entries after) (distinct : Distinct entries) :
    Distinct after := by
  cases writes with
  | same => exact distinct
  | put _ name plain => exact distinct.put name plain
  | @under _ name inner changed held change =>
    -- What happens further down does not matter: a change of a table keeps its own keys distinct.
    refine distinct.put name ?_
    rintro _ ⟨⟩
    refine change.nodup ?_
    rcases held with found | rfl
    · exact distinct name _ found inner rfl
    · exact List.nodup_nil

namespace Reader

theorem openTable_writes {names implied later : List Text}
    (opened : openTable names implied entries = .ok (after, later)) : Writes entries after := by
  induction names generalizing implied later entries after with
  | nil =>
    obtain ⟨rfl, -⟩ := Prod.mk.inj (Except.ok.inj opened)
    exact .same _
  | cons name rest ih =>
    rw [openTable.eq_def] at opened
    dsimp only at opened
    split at opened
    · contradiction
    split at opened
    · obtain ⟨rfl, -⟩ := Prod.mk.inj (Except.ok.inj opened)
      exact .put entries name Value.hasDistinctKeys_nil
    · split at opened
      · obtain ⟨rfl, -⟩ := Prod.mk.inj (Except.ok.inj opened)
        exact .same _
      · contradiction
    · obtain ⟨⟨inner, made⟩, below, same⟩ := ok_of_bind opened
      obtain ⟨rfl, -⟩ := Prod.mk.inj (Except.ok.inj same)
      exact .under name (.inr rfl) (ih below)
    · rename_i inner found _
      obtain ⟨⟨changed, made⟩, below, same⟩ := ok_of_bind opened
      obtain ⟨rfl, -⟩ := Prod.mk.inj (Except.ok.inj same)
      exact .under name (.inl found) (ih below)
    · contradiction
    · contradiction

theorem grow_writes {names : List Text} (grown : grow names entries = .ok after) :
    Writes entries after := by
  induction names generalizing entries after with
  | nil =>
    rw [← Except.ok.inj grown]
    exact .same entries
  | cons name rest ih =>
    rw [grow.eq_def] at grown
    dsimp only at grown
    split at grown
    · rename_i inner held
      obtain ⟨changed, below, same⟩ := ok_of_bind grown
      rw [← Except.ok.inj same]
      refine .under name ?_ (ih below)
      cases found : entries.get? name with
      | none =>
        rw [found] at held
        cases held
        exact .inr rfl
      | some value =>
        rw [found] at held
        exact .inl (congrArg some held)
    · rw [← Except.ok.inj grown]
      exact .same entries
    · contradiction

theorem adjust?_writes {change : Document → Option Document} {names : List Text}
    (changes : ∀ entries after, change entries = some after → Writes entries after)
    (adjusted : adjust? change names entries = some after) : Writes entries after := by
  induction names generalizing entries after with
  | nil => exact changes entries after adjusted
  | cons name rest ih =>
    rw [adjust?] at adjusted
    split at adjusted
    · rename_i inner found
      obtain ⟨changed, below, rfl⟩ := Option.map_eq_some_iff.mp adjusted
      exact .under name (.inl found) (ih below)
    · contradiction

theorem putNew?_writes (plain : value.HasDistinctKeys) (entries after : Document)
    (written : putNew? name value entries = some after) : Writes entries after := by
  rw [putNew?] at written
  split at written
  · contradiction
  · rw [← Option.some.inj written]
    exact .put entries name plain

/-! ### Values of lines -/

theorem hasDistinctKeys_of_number? {text : Text} (read : Scalar.number? text = some value) :
    value.HasDistinctKeys := by
  intro entries same
  subst same
  simp only [Scalar.number?] at read
  split at read
  · split at read
    · contradiction
    · obtain ⟨number, -, wrong⟩ := Option.map_eq_some_iff.mp read
      contradiction
  split at read
  · obtain ⟨number, -, wrong⟩ := Option.map_eq_some_iff.mp read
    contradiction
  · obtain ⟨number, -, wrong⟩ := Option.map_eq_some_iff.mp read
    contradiction

theorem hasDistinctKeys_of_scalar {wellFormed : Bool} {text : Text}
    (read : Scalar.read wellFormed text = .ok value) : value.HasDistinctKeys := by
  intro entries same
  subst same
  rw [Scalar.read.eq_def] at read
  split at read
  · exact absurd (Except.ok.inj read) nofun
  split at read
  · exact absurd (Except.ok.inj read) nofun
  split at read
  · contradiction
  split at read
  · obtain ⟨content, -, wrong⟩ := ok_of_map read
    contradiction
  split at read
  · contradiction
  split at read
  · rename_i number found
    cases read
    exact hasDistinctKeys_of_number? found entries rfl
  · contradiction

theorem hasDistinctKeys_of_read {wellFormed : Bool} {text : Text}
    (read : Value.read wellFormed text = .ok value) : value.HasDistinctKeys := by
  rw [Value.read.eq_def] at read
  split at read
  · obtain ⟨pieces, -, later⟩ := ok_of_bind read
    obtain ⟨items, -, same⟩ := ok_of_bind later
    cases same
    exact fun _ => nofun
  · exact hasDistinctKeys_of_scalar read

/-! ### Lines -/

variable {state later : State} {text : Text}

theorem header_distinct (distinct : Distinct state.document)
    (opened : header state text = .ok later) : Distinct later.document := by
  obtain ⟨inside, -, opened⟩ := ok_of_bind opened
  obtain ⟨names, -, opened⟩ := ok_of_bind opened
  obtain ⟨⟨document, implied⟩, made, same⟩ := ok_of_bind opened
  cases same
  exact (openTable_writes made).distinct distinct

theorem ok_orMalformed {α : Type} {result : Option α} {a : α}
    (given : orMalformed result = .ok a) : result = some a := by
  cases result with
  | none => contradiction
  | some b => exact congrArg some (Except.ok.inj given)

theorem assignment_distinct (distinct : Distinct state.document)
    (assigned : assignment state text = .ok later) : Distinct later.document := by
  obtain ⟨⟨left, right, wellFormed⟩, -, assigned⟩ := ok_of_bind assigned
  obtain ⟨path, -, assigned⟩ := ok_of_bind assigned
  obtain ⟨document, grown, assigned⟩ := ok_of_bind assigned
  have made : Distinct document := (grow_writes grown).distinct distinct
  obtain ⟨goesOn, -, assigned⟩ := ok_of_bind assigned
  split at assigned
  · obtain ⟨written, -, assigned⟩ := ok_of_bind assigned
    split at assigned
    · contradiction
    · cases assigned
      exact made
  · obtain ⟨value, read, assigned⟩ := ok_of_bind assigned
    obtain ⟨written, put, same⟩ := ok_of_bind assigned
    cases same
    have plain := hasDistinctKeys_of_read read
    exact (adjust?_writes (putNew?_writes plain) (ok_orMalformed put)).distinct made

theorem resume_distinct {pending : Pending} (distinct : Distinct state.document)
    (resumed : resume state pending text = .ok later) : Distinct later.document := by
  have settled {isClosed : Bool} {content : Text}
      (settled : (if isClosed then do
        let value ← Value.read true content
        let put (entries : Document) : Option Document := some (entries.put pending.key value)
        return { state with
          document := ← orMalformed (adjust? put state.current state.document), pending := none }
      else return { state with pending := some (hold pending.key content) }) = .ok later) :
      Distinct later.document := by
    split at settled
    · obtain ⟨value, read, settled⟩ := ok_of_bind settled
      obtain ⟨written, put, same⟩ := ok_of_bind settled
      cases same
      refine (adjust?_writes ?_ (ok_orMalformed put)).distinct distinct
      rintro entries after ⟨⟩
      exact .put entries _ (hasDistinctKeys_of_read read)
    · cases settled
      exact distinct
  simp only [resume] at resumed
  generalize (if pending.continued = true then Text.trim text else text) = line at resumed
  split at resumed
  · cases resumed
    exact distinct
  split at resumed
  all_goals
    obtain ⟨isClosed, -, resumed⟩ := ok_of_bind resumed
    exact settled resumed

theorem next_distinct (distinct : Distinct state.document) (read : next state text = .ok later) :
    Distinct later.document := by
  rw [next] at read
  split at read
  · exact resume_distinct distinct read
  split at read
  · cases read
    exact distinct
  · exact header_distinct distinct read
  · contradiction
  split at read
  · exact assignment_distinct distinct read
  · cases read
    exact distinct

/-- No table at the top level of a document that was read has two entries with one key. -/
theorem distinct_of_document {document : Document} (read : Reader.document text = .ok document) :
    Distinct document := by
  obtain ⟨lines, -, read⟩ := ok_of_bind read
  obtain ⟨last, ran, same⟩ := ok_of_bind read
  have kept := of_foldlM (P := fun state => Distinct state.document)
    (fun _ _ _ => next_distinct) distinct_nil ran
  exact Except.ok.inj same ▸ kept

end Reader

end Flowchart.Toml
