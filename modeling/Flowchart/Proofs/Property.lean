import Flowchart.Proofs.Declaration

/-!
Property lists that are written down. Pairs `key: value` joined by a comma and a space are read back
in their order, as long as neither the marks of the list nor outer blanks are part of a pair.
-/
namespace Flowchart.Property

/-- What a pair is that can be told from the text around it. The value may be empty and may hold
colons. -/
structure Writable (entry : Text × Text) : Prop where
  key : entry.1 ≠ []
  key_trimmed : Text.Trimmed entry.1
  key_colon : ':' ∉ entry.1
  key_comma : ',' ∉ entry.1
  value_trimmed : Text.Trimmed entry.2
  value_comma : ',' ∉ entry.2

def writePair (entry : Text × Text) : Text := entry.1 ++ ": ".toList ++ entry.2

def write (entries : List (Text × Text)) : Text :=
  ", ".toList.intercalate (entries.map writePair)

theorem write_cons_cons (entry next : Text × Text) (more : List (Text × Text)) :
    write (entry :: next :: more) = writePair entry ++ ',' :: ' ' :: write (next :: more) := by
  simp [write, List.intercalate_cons_cons]

variable {entry : Text × Text} {entries : List (Text × Text)}

theorem not_mem_write {mark : Char} (comma : mark ≠ ',') (space : mark ≠ ' ')
    (absent : ∀ entry ∈ entries, mark ∉ writePair entry) : mark ∉ write entries := by
  induction entries with
  | nil => exact List.not_mem_nil
  | cons first rest ih =>
    obtain ⟨here, later⟩ := List.forall_mem_cons.mp absent
    cases rest with
    | nil => simpa [write] using here
    | cons next more =>
      rw [write_cons_cons]
      have behind := ih later
      simp [here, behind, comma, space]

theorem Writable.not_mem_comma (writable : Writable entry) : ',' ∉ writePair entry := by
  simp [writePair, writable.key_comma, writable.value_comma]

theorem Writable.pair? (writable : Writable entry) : pair? (writePair entry) = some entry := by
  have shape : writePair entry = entry.1 ++ ':' :: ' ' :: entry.2 := by simp [writePair]
  have value : Text.trim (' ' :: entry.2) = entry.2 := by
    rw [Text.trim_cons_of_blank entry.2 (by decide), writable.value_trimmed]
  have key : Text.trim entry.1 = entry.1 := writable.key_trimmed
  simp [Property.pair?, shape, Text.cutAt?_append writable.key_colon, key, value, writable.key]

/-- Blanks in front of a pair are not seen. -/
theorem pair?_trimLeft (piece : Text) : pair? (Text.trimLeft piece) = pair? piece := by
  rw [pair?, pair?, Text.cutAt?_trimLeft (by decide), Option.bind_map]
  simp only [Function.comp_def, Text.trim_trimLeft]

theorem filterMap_pair?_trimLeft (text : Text) :
    ((Text.trimLeft text).splitOn ',').filterMap pair? = (text.splitOn ',').filterMap pair? := by
  obtain ⟨head, tail, shown⟩ := List.exists_cons_of_ne_nil (List.splitOn_ne_nil ',' text)
  rw [Text.splitOn_trimLeft (by decide), shown, List.modifyHead_cons, List.filterMap_cons,
    List.filterMap_cons, pair?_trimLeft]

theorem filterMap_pair?_write (writable : ∀ entry ∈ entries, Writable entry) :
    ((write entries).splitOn ',').filterMap pair? = entries := by
  induction entries with
  | nil => rfl
  | cons first rest ih =>
    obtain ⟨here, later⟩ := List.forall_mem_cons.mp writable
    cases rest with
    | nil =>
      have alone : write [first] = writePair first := by simp [write]
      rw [alone, List.splitOn_eq_singleton here.not_mem_comma]
      simp [here.pair?]
    | cons next more =>
      have blank : Text.isBlank ' ' = true := by decide
      have space := Text.trimLeft_cons_of_blank (write (next :: more)) blank
      have behind := ih later
      rw [write_cons_cons, List.splitOn_append_cons_self_of_not_mem here.not_mem_comma,
        List.filterMap_cons, here.pair?, ← filterMap_pair?_trimLeft, space,
        filterMap_pair?_trimLeft, behind]

/-- What is written is read back, each key where it stands first with the value it has last. -/
theorem read_write (writable : ∀ entry ∈ entries, Writable entry) :
    read (write entries) = Table.ofList entries := by
  rw [read, filterMap_pair?_write writable]

end Flowchart.Property
