import Flowchart.Table
import Mathlib.Data.List.Induction

/-!
Tables built by writing entries one after the other: the keys stand in the order in which they were
written first, and each key has the value that was written last. One table written over another
keeps the places of its keys.
-/
namespace Flowchart.Table

variable {κ υ : Type} [DecidableEq κ]

theorem mem_of_mem_put {table : Table κ υ} {key : κ} {value : υ} {entry : κ × υ}
    (member : entry ∈ table.put key value) : entry = (key, value) ∨ entry ∈ table := by
  induction table with
  | nil => exact .inl (List.mem_singleton.mp member)
  | cons first rest ih =>
    rw [put] at member
    split at member
    · rename_i same
      rcases List.mem_cons.mp member with changed | later
      · exact .inl (by rw [changed, same])
      · exact .inr (List.mem_cons_of_mem first later)
    · rcases List.mem_cons.mp member with here | later
      · exact .inr (here ▸ List.mem_cons_self)
      · rcases ih later with new | old
        · exact .inl new
        · exact .inr (List.mem_cons_of_mem first old)

theorem mem_of_get? {table : Table κ υ} {key : κ} {value : υ}
    (found : table.get? key = some value) : (key, value) ∈ table := by
  induction table with
  | nil => simp [get?] at found
  | cons first rest ih =>
    rw [get?] at found
    split at found
    · rename_i same
      rw [← same, ← Option.some.inj found]
      exact List.mem_cons_self
    · exact List.mem_cons_of_mem first (ih found)

theorem get?_of_not_mem {table : Table κ υ} {key : κ} (fresh : key ∉ table.keys) :
    table.get? key = none := by
  cases found : table.get? key with
  | none => rfl
  | some value => exact absurd (List.mem_map_of_mem (mem_of_get? found)) fresh

theorem get?_erase (table : Table κ υ) (key other : κ) :
    (table.erase key).get? other = if key = other then none else table.get? other := by
  induction table with
  | nil => simp [erase, get?]
  | cons first rest ih =>
    obtain ⟨k, v⟩ := first
    rw [erase] at ih ⊢
    by_cases gone : k = key
    · subst gone
      rw [List.filter_cons_of_neg (by simp), ih, get?]
      split <;> rfl
    · rw [List.filter_cons_of_pos (by simpa using gone), get?, get?, ih]
      by_cases here : k = other
      · rw [if_pos here, if_pos here, if_neg (by rwa [← here, eq_comm])]
      · rw [if_neg here, if_neg here]

theorem ofList_concat (entries : List (κ × υ)) (entry : κ × υ) :
    ofList (entries ++ [entry]) = (ofList entries).put entry.1 entry.2 := by
  rw [ofList, ofList, merge, merge, List.foldl_append]
  rfl

theorem mem_of_mem_ofList {entries : List (κ × υ)} {entry : κ × υ}
    (member : entry ∈ ofList entries) : entry ∈ entries := by
  induction entries using List.reverseRecOn with
  | nil => exact absurd member List.not_mem_nil
  | append_singleton before last ih =>
    rw [ofList_concat] at member
    rcases mem_of_mem_put member with new | old
    · exact List.mem_append_right before (List.mem_singleton.mpr new)
    · exact List.mem_append_left [last] (ih old)

theorem put_of_not_mem {table : Table κ υ} {key : κ} (fresh : key ∉ table.keys) (value : υ) :
    table.put key value = table ++ [(key, value)] := by
  induction table with
  | nil => rfl
  | cons first rest ih =>
    obtain ⟨other, later⟩ := not_or.mp (mt List.mem_cons.mpr fresh)
    rw [put, if_neg (Ne.symm other), ih later]
    rfl

theorem ofList_of_nodup {entries : List (κ × υ)} (distinct : (entries.map (·.1)).Nodup) :
    ofList entries = entries := by
  induction entries using List.reverseRecOn with
  | nil => rfl
  | append_singleton before last ih =>
    rw [List.map_append, List.nodup_append] at distinct
    obtain ⟨earlier, _, apart⟩ := distinct
    have fresh : last.1 ∉ keys before := by
      intro member
      exact apart last.1 member last.1 (by simp) rfl
    rw [ofList_concat, ih earlier, put_of_not_mem fresh]

theorem keys_ofList [BEq κ] [LawfulBEq κ] (entries : List (κ × υ)) :
    (ofList entries).keys = (entries.map (·.1)).eraseDups := by
  induction entries using List.reverseRecOn with
  | nil => rfl
  | append_singleton before last ih =>
    rw [ofList_concat, keys_put, ih, List.map_append, List.eraseDups_append, List.map_singleton]
    by_cases seen : last.1 ∈ before.map (·.1)
    · have known : last.1 ∈ (before.map (·.1)).eraseDups := List.mem_eraseDups.mpr seen
      have gone : [last.1].removeAll (before.map (·.1)) = [] := by
        simp only [List.removeAll, List.filter_cons, List.elem_eq_true_of_mem seen]
        rfl
      rw [if_pos known, gone, List.eraseDups_nil, List.append_nil]
    · have fresh : last.1 ∉ (before.map (·.1)).eraseDups := mt List.mem_eraseDups.mp seen
      have kept : [last.1].removeAll (before.map (·.1)) = [last.1] := by
        simp only [List.removeAll, List.filter_cons, List.elem_eq_mem, seen]
        rfl
      rw [if_neg fresh, kept]
      rfl

theorem get?_ofList [BEq κ] [LawfulBEq κ] (entries : List (κ × υ)) (key : κ) :
    (ofList entries).get? key = (entries.findRev? (·.1 == key)).map (·.2) := by
  induction entries using List.reverseRecOn with
  | nil => rfl
  | append_singleton before last ih =>
    rw [ofList_concat, get?_put, ih]
    by_cases same : last.1 = key
    · simp [same]
    · simp [same]

/-- One value is written under several keys. -/
theorem get?_foldl_put (table : Table κ υ) (written : List κ) (value : υ) (key : κ) :
    (written.foldl (fun table key => table.put key value) table).get? key =
      if key ∈ written then some value else table.get? key := by
  induction written generalizing table with
  | nil => rfl
  | cons first rest ih =>
    rw [List.foldl_cons, ih, get?_put]
    by_cases later : key ∈ rest
    · simp [later]
    · by_cases here : first = key
      · simp [here]
      · simp [later, here, Ne.symm here]

/-! ### One table written over another -/

theorem nodup_keys_ofList (entries : List (κ × υ)) : (ofList entries).keys.Nodup := by
  induction entries using List.reverseRecOn with
  | nil => exact List.nodup_nil
  | append_singleton before last ih =>
    rw [ofList_concat]
    exact nodup_keys_put ih last.1 last.2

theorem put_put (table : Table κ υ) (key : κ) (old new : υ) :
    (table.put key old).put key new = table.put key new := by
  induction table with
  | nil => simp [put]
  | cons first rest ih =>
    by_cases here : first.1 = key
    · simp [put, here]
    · simp [put, here, ih]

/-- A key that has its place can be written before or after another one. -/
theorem put_comm {table : Table κ υ} {key other : κ} (known : key ∈ table.keys)
    (apart : other ≠ key) (value written : υ) :
    (table.put other written).put key value = (table.put key value).put other written := by
  induction table with
  | nil => exact absurd known List.not_mem_nil
  | cons first rest ih =>
    by_cases here : first.1 = key
    · have elsewhere : key ≠ other := apart.symm
      simp [put, here, elsewhere]
    · have behind : key ∈ keys rest := by
        rcases List.mem_cons.mp known with same | later
        · exact absurd same.symm here
        · exact later
      by_cases there : first.1 = other
      · simp [put, there, apart]
      · simp [put, here, there, ih behind]

theorem merge_cons (table : Table κ υ) (first : κ × υ) (rest : List (κ × υ)) :
    table.merge (first :: rest) = (table.put first.1 first.2).merge rest := rfl

/-- Writing a key last is as writing it first, if it has its place and nothing else writes it. -/
theorem put_merge {table : Table κ υ} {key : κ} {updates : Table κ υ} (known : key ∈ table.keys)
    (fresh : key ∉ updates.keys) (value : υ) :
    (table.merge updates).put key value = (table.put key value).merge updates := by
  induction updates generalizing table with
  | nil => rfl
  | cons first rest ih =>
    obtain ⟨apart, later⟩ := not_or.mp (mt List.mem_cons.mpr fresh)
    have kept : key ∈ (table.put first.1 first.2).keys := mem_keys_put.mpr (.inr known)
    rw [merge_cons, merge_cons, ih kept later, put_comm known (Ne.symm apart)]

theorem merge_put {table updates : Table κ υ} (distinct : updates.keys.Nodup) (key : κ)
    (value : υ) : table.merge (updates.put key value) = (table.merge updates).put key value := by
  induction updates generalizing table with
  | nil => rfl
  | cons first rest ih =>
    obtain ⟨fresh, later⟩ := List.nodup_cons.mp distinct
    by_cases here : first.1 = key
    · have known : key ∈ (table.put first.1 first.2).keys := mem_keys_put.mpr (.inl here.symm)
      have one : put (first :: rest) key value = (key, value) :: rest := by simp [put, here]
      rw [one, merge_cons, merge_cons, put_merge known (here ▸ fresh), here, put_put]
    · have one : put (first :: rest) key value = first :: put rest key value := by
        simp [put, here]
      rw [one, merge_cons, merge_cons, ih later]

/-- Writing entries over a table is writing the table of these entries over it. -/
theorem merge_ofList (table : Table κ υ) (entries : List (κ × υ)) :
    table.merge (ofList entries) = table.merge entries := by
  induction entries using List.reverseRecOn with
  | nil => rfl
  | append_singleton before last ih =>
    have whole : table.merge (before ++ [last]) = (table.merge before).put last.1 last.2 := by
      rw [merge, merge, List.foldl_append]
      rfl
    rw [ofList_concat, merge_put (nodup_keys_ofList before), ih, whole]

/-- The keys of the table keep their places, and new ones follow. -/
theorem keys_merge [BEq κ] [LawfulBEq κ] {table updates : Table κ υ}
    (distinct : updates.keys.Nodup) :
    (table.merge updates).keys = table.keys ++ updates.keys.filter (· ∉ table.keys) := by
  induction updates generalizing table with
  | nil => exact (List.append_nil _).symm
  | cons first rest ih =>
    obtain ⟨fresh, later⟩ := List.nodup_cons.mp distinct
    have apart : (keys rest).filter (· ∉ table.keys ++ [first.1]) =
        (keys rest).filter (· ∉ table.keys) := by
      apply List.filter_congr
      intro key member
      have other : key ≠ first.1 := ne_of_mem_of_not_mem member fresh
      simp [other]
    rw [merge_cons, ih later, keys_put, keys_cons]
    by_cases seen : first.1 ∈ table.keys
    · rw [if_pos seen, List.filter_cons_of_neg (by simpa using seen)]
    · rw [if_neg seen, apart, List.filter_cons_of_pos (by simpa using seen), List.append_assoc]
      rfl

theorem get?_merge {table updates : Table κ υ} (distinct : updates.keys.Nodup) (key : κ) :
    (table.merge updates).get? key = (updates.get? key).or (table.get? key) := by
  induction updates generalizing table with
  | nil => rfl
  | cons first rest ih =>
    obtain ⟨fresh, later⟩ := List.nodup_cons.mp distinct
    rw [merge_cons, ih later, get?_put, get?]
    by_cases here : first.1 = key
    · have none : get? rest key = none := get?_of_not_mem (here ▸ fresh)
      rw [if_pos here, if_pos here, none, Option.none_or, Option.some_or]
    · rw [if_neg here, if_neg here]

end Flowchart.Table
