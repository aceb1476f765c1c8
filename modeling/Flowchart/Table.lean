/-!
Tables in order of insertion. A key that is written again keeps its place and takes the new value.
-/
namespace Flowchart

abbrev Table (κ υ : Type) := List (κ × υ)

namespace Table

variable {κ υ : Type} [DecidableEq κ]

def put : Table κ υ → κ → υ → Table κ υ
  | [], key, value => [(key, value)]
  | (k, v) :: rest, key, value =>
    if k = key then (k, value) :: rest else (k, v) :: put rest key value

def get? : Table κ υ → κ → Option υ
  | [], _ => none
  | (k, v) :: rest, key => if k = key then some v else get? rest key

def erase (table : Table κ υ) (key : κ) : Table κ υ := table.filter (·.1 ≠ key)

def keys (table : Table κ υ) : List κ := table.map (·.1)

def values (table : Table κ υ) : List υ := table.map (·.2)

/-- Writes the entries of `updates` over those of `table`, one after the other. -/
def merge (table updates : Table κ υ) : Table κ υ :=
  updates.foldl (fun t (key, value) => t.put key value) table

def ofList (entries : List (κ × υ)) : Table κ υ := merge [] entries

omit [DecidableEq κ] in
@[simp] theorem keys_cons (entry : κ × υ) (table : Table κ υ) :
    keys (entry :: table) = entry.1 :: keys table := rfl

theorem get?_put (table : Table κ υ) (key other : κ) (value : υ) :
    (table.put key value).get? other = if key = other then some value else table.get? other := by
  induction table with
  | nil => rfl
  | cons entry rest ih =>
    obtain ⟨k, v⟩ := entry
    by_cases same : k = key
    · subst same
      by_cases hit : k = other <;> simp [put, get?, hit]
    · by_cases hit : k = other
      · subst hit
        simp [put, get?, same, Ne.symm same]
      · simp [put, get?, same, hit, ih]

theorem keys_put (table : Table κ υ) (key : κ) (value : υ) :
    (table.put key value).keys = if key ∈ table.keys then table.keys else table.keys ++ [key] := by
  induction table with
  | nil => rfl
  | cons entry rest ih =>
    obtain ⟨k, v⟩ := entry
    by_cases same : k = key
    · simp [put, same]
    · by_cases seen : key ∈ keys rest <;> simp [put, same, ih, seen, Ne.symm same]

theorem mem_keys_put {table : Table κ υ} {key other : κ} {value : υ} :
    other ∈ (table.put key value).keys ↔ other = key ∨ other ∈ table.keys := by
  rw [keys_put]
  split
  · rename_i seen
    constructor
    · intro member
      exact .inr member
    · rintro (rfl | member)
      · exact seen
      · exact member
  · rw [List.mem_append, List.mem_singleton, or_comm]

theorem nodup_keys_put {table : Table κ υ} (distinct : table.keys.Nodup) (key : κ) (value : υ) :
    (table.put key value).keys.Nodup := by
  rw [keys_put]
  split
  · exact distinct
  · rename_i fresh
    refine List.nodup_append.mpr ⟨distinct, List.pairwise_singleton _ _, ?_⟩
    intro old present new member same
    rw [List.mem_singleton.mp member] at same
    exact fresh (same ▸ present)

end Table

end Flowchart
