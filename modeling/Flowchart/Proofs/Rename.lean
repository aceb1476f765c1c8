import Flowchart.Proofs.Edited
import Flowchart.Proofs.Text.Pieces
import Flowchart.Rename

/-!
What renaming touches. Every place gives back the text that it is found in, so each of the three
passes replaces occurrences of the old label by the new one and keeps everything between them.
-/
namespace Flowchart

variable {text old new : Text}

namespace Place

/-- A place that takes texts apart without a loss. -/
structure Cuts (place : Place) : Prop where
  leads : ∀ {atStart text lead after}, (lead, after) ∈ place.leads atStart text →
    text = lead ++ after
  trail : ∀ {text trail rest}, place.trail? text = some (trail, rest) → text = trail ++ rest

theorem append_of_mem_blankCuts {cut : Text × Text} (member : cut ∈ blankCuts text) :
    text = cut.1 ++ cut.2 := by
  induction text generalizing cut with
  | nil =>
    rw [List.mem_singleton.mp member]
    rfl
  | cons c rest ih =>
    rw [blankCuts] at member
    split at member
    · rcases List.mem_append.mp member with longer | none
      · obtain ⟨inner, found, rfl⟩ := List.mem_map.mp longer
        exact congrArg (c :: ·) (ih found)
      · rw [List.mem_singleton.mp none]
        rfl
    · rw [List.mem_singleton.mp member]
      rfl

theorem append_of_arrow? {trail rest : Text} (found : arrow? text = some (trail, rest)) :
    text = trail ++ rest := by
  rw [arrow?] at found
  split at found
  · rename_i c after shown
    split at found
    · obtain ⟨rfl, rfl⟩ := Prod.mk.inj (Option.some.inj found)
      rw [List.append_assoc, List.cons_append, Text.indent_append_trimLeft, ← shown,
        Text.indent_append_trimLeft]
    · contradiction
  · contradiction

theorem append_of_lineEnd? {trail rest : Text} (found : lineEnd? text = some (trail, rest)) :
    text = trail ++ rest := by
  rw [lineEnd?] at found
  split at found
  · obtain ⟨rfl, rfl⟩ := Prod.mk.inj (Option.some.inj found)
    rw [List.append_nil]
  · exact append_of_mem_blankCuts (List.mem_of_find?_eq_some found)

theorem append_of_markOrEnd? {mark : Char} {trail rest : Text}
    (found : markOrEnd? mark text = some (trail, rest)) : text = trail ++ rest := by
  rw [markOrEnd?] at found
  split at found
  · rename_i c after shown
    split at found
    · rename_i same
      obtain ⟨rfl, rfl⟩ := Prod.mk.inj (Option.some.inj found)
      rw [List.append_assoc, List.singleton_append, ← same, ← shown, Text.indent_append_trimLeft]
    · exact append_of_lineEnd? found
  · exact append_of_lineEnd? found

theorem append_of_mem_startCuts {atStart : Bool} {cut : Text × Text}
    (member : cut ∈ if atStart then blankCuts text else []) : text = cut.1 ++ cut.2 := by
  cases atStart with
  | false => contradiction
  | true => exact append_of_mem_blankCuts member

theorem declaration_cuts : declaration.Cuts where
  leads := append_of_mem_startCuts
  trail := append_of_markOrEnd?

theorem leftOperand_cuts : leftOperand.Cuts where
  leads {atStart text lead after} member := by
    rcases List.mem_append.mp member with start | arrow
    · exact append_of_mem_startCuts start
    · split at arrow
      · split at arrow
        · obtain ⟨cut, found, same⟩ := List.mem_map.mp arrow
          obtain ⟨rfl, rfl⟩ := Prod.mk.inj same
          exact congrArg (_ :: ·) (append_of_mem_blankCuts (List.mem_filter.mp found).1)
        · contradiction
      · contradiction
  trail := append_of_arrow?

theorem rightOperand_cuts : rightOperand.Cuts where
  leads {atStart text lead after} member := by
    simp only [rightOperand] at member
    split at member
    · rename_i c rest shown
      split at member
      · obtain ⟨cut, found, same⟩ := List.mem_map.mp member
        obtain ⟨rfl, rfl⟩ := Prod.mk.inj same
        rw [List.append_assoc, List.cons_append, ← append_of_mem_blankCuts found, ← shown,
          Text.indent_append_trimLeft]
      · contradiction
    · contradiction
  trail := append_of_markOrEnd?

/-- An occurrence is the label between what leads up to it and what follows it. -/
theorem append_of_occurrence? {place : Place} (cuts : place.Cuts) {label : Text} {atStart : Bool}
    {lead trail rest : Text}
    (found : place.occurrence? label atStart text = some (lead, trail, rest)) :
    text = lead ++ (label ++ (trail ++ rest)) := by
  obtain ⟨⟨front, after⟩, member, inner⟩ := List.exists_of_findSome?_eq_some found
  obtain ⟨behind, dropped, inner⟩ := Option.bind_eq_some_iff.mp inner
  obtain ⟨⟨ending, remaining⟩, ended, same⟩ := Option.bind_eq_some_iff.mp inner
  cases same
  rw [cuts.leads member, Text.append_of_dropStart? dropped, cuts.trail ended]

/-- The edits of renaming: the old label becomes the new one. -/
def Relabels (old new : Text) (before after : Text) : Prop := before = old ∧ after = new

/-- A pass over a text keeps everything but the label at the occurrences of the place. -/
theorem edited_replace {place : Place} (cuts : place.Cuts) (old new : Text) (atStart : Bool)
    (text : Text) : Edited (Relabels old new) text (place.replace old new atStart text) := by
  induction atStart, text using replace.induct place old with
  | case1 atStart lead trail rest text shorter found ih =>
    rw [replace.eq_def, found]
    dsimp only
    rw [if_pos shorter, append_of_occurrence? cuts found, List.append_assoc, List.append_assoc]
    exact .keep_append lead (.change ⟨rfl, rfl⟩ (.keep_append trail ih))
  | case2 atStart lead trail rest text whole found ih =>
    -- Nothing was consumed, so the label is empty and the new one is put in front.
    have parts := congrArg List.length (append_of_occurrence? cuts found)
    simp only [List.length_append] at parts
    have empty : old = [] := List.eq_nil_of_length_eq_zero (by omega)
    rw [replace.eq_def, found]
    dsimp only
    rw [if_neg whole]
    have inserted : Relabels old new [] new := ⟨empty.symm, rfl⟩
    cases text with
    | nil => exact (Edited.change inserted .nil :)
    | cons c rest => exact (Edited.change inserted (.keep c ih) :)
  | case3 atStart none =>
    rw [replace.eq_def, none]
    exact .nil
  | case4 atStart c rest none ih =>
    rw [replace.eq_def, none]
    exact .keep c ih

end Place

/-- Renaming makes three passes over a text and replaces occurrences of the old label by the new one
in each of them. -/
def Relabelled (old new before after : Text) : Prop :=
  ∃ declared joined,
    Edited (Place.Relabels old new) before declared ∧
      Edited (Place.Relabels old new) declared joined ∧
      Edited (Place.Relabels old new) joined after

theorem relabelled_rename (text old new : Text) :
    Relabelled old new text (rename text old new) := by
  rw [rename]
  split
  · exact ⟨text, text, .refl text, .refl text, .refl text⟩
  · exact ⟨_, _, Place.edited_replace Place.declaration_cuts old new true _,
      Place.edited_replace Place.leftOperand_cuts old new true _,
      Place.edited_replace Place.rightOperand_cuts old new true _⟩

end Flowchart
