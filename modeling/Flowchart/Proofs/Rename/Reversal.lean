import Flowchart.Proofs.Rename.Scan

/-!
Renaming back. A new label that does not occur in a source is spelled only where renaming put it, so
renaming it back hits in every pass the labels that the pass hit before.
-/
namespace Flowchart

open Place (Label)

variable {pieces : List (Piece Nat)} {places : List Place} {old new : Label}
  {before after : Nat → Label}

namespace Skeleton

/-- The spelling on the way back in front of the passes that led from `before` to `after`: what they
rename is still new, everything else has its first spelling again. -/
def returning (old new : Label) (before after : Nat → Label) (k : Nat) : Label :=
  if before k = old then after k else if before k = new then old else before k

/-- Passes with the labels exchanged hit the same labels one after the other. -/
theorem Passes.back (passes : Passes old new pieces places before after) (different : old ≠ new) :
    Passes new old pieces places (returning old new before after)
      (returning old new after after) := by
  induction passes with
  | nil => exact .nil
  | @cons place places before after hits scan later ih =>
    have hit : ∀ k ∈ hits, before k = old ∧ after k = new := by
      intro k member
      have renamed : relabel before hits new k = new := if_pos member
      refine ⟨scan.named k member, ?_⟩
      rcases later.kept k with same | ⟨first, _⟩
      · exact same.trans renamed
      · exact absurd (first.symm.trans renamed) different
    have again : Scan place new (returning old new before after) true pieces hits := by
      apply scan.respell
      · intro k member
        rw [returning, if_pos (hit k member).1, (hit k member).2]
      · intro k named
        by_contra other
        rw [returning, if_neg other] at named
        split at named
        · exact different named
        · contradiction
    have undone : relabel (returning old new before after) hits old =
        returning old new (relabel before hits new) after := by
      funext k
      by_cases member : k ∈ hits
      · simp [relabel, returning, member, Ne.symm different]
      · rw [relabel_eq _ hits old member, returning, returning,
          relabel_eq before hits new member]
    exact .cons again (undone ▸ ih)

/-- Where no label is new at first, the way back begins with what the passes have left. -/
theorem Passes.returning_start (passes : Passes old new pieces places before after)
    (absent : ∀ k, before k ≠ new) : returning old new before after = after := by
  funext k
  rw [returning, if_neg (absent k)]
  rcases passes.kept k with same | ⟨first, _⟩
  · split <;> simp [same]
  · rw [if_pos first]

/-- And it ends with the first spelling. -/
theorem Passes.returning_finish (passes : Passes old new pieces places before after)
    (different : old ≠ new) (absent : ∀ k, before k ≠ new) :
    returning old new after after = before := by
  funext k
  rw [returning]
  rcases passes.kept k with same | ⟨first, renamed⟩
  · rw [same, if_neg (absent k), ite_self]
  · rw [renamed, if_neg (Ne.symm different), if_pos rfl, first]

end Skeleton

/-- Renaming to a label that does not occur can be taken back by renaming. -/
theorem rename_rename (source : Text) (old new : Label) (fresh : ¬new.text <:+: source) :
    rename (rename source old.text new.text) new.text old.text = source := by
  by_cases different : old = new
  · subst different
    simp [rename]
  · obtain ⟨pieces, spelling, apart, distinct, spelled, known⟩ :=
      Skeleton.exists_skeleton source old
    obtain ⟨after, passes⟩ :=
      Skeleton.exists_passes old new pieces Place.inOrder spelling
    have absent : ∀ k, spelling k ≠ new := by
      intro k same
      rcases known k with standard | inside
      · exact different (standard.symm.trans same)
      · exact fresh (same ▸ inside)
    have back := passes.back different
    rw [passes.returning_start absent, passes.returning_finish different absent] at back
    calc
      rename (rename source old.text new.text) new.text old.text
      _ = rename (Skeleton.spell after pieces) new.text old.text := by
        rw [← spelled, passes.rename apart distinct different]
      _ = Skeleton.spell spelling pieces := back.rename apart distinct (Ne.symm different)
      _ = source := spelled

/-- The new label begins with the old one, and one of the operands is passed over. -/
theorem rename_rename_chain :
    rename "A > A > A: A".toList ['A'] ['A', '2'] = "A2 > A > A2: A".toList ∧
      rename (rename "A > A > A: A".toList ['A'] ['A', '2']) ['A', '2'] ['A'] =
        "A > A > A: A".toList := by
  let old : Label := ⟨['A'], by decide, rfl, by decide⟩
  let new : Label := ⟨['A', '2'], by decide, rfl, by decide⟩
  have fresh : ¬new.text <:+: "A > A > A: A".toList := mt Text.occursIn_iff.mpr (by decide)
  exact ⟨by cbv, rename_rename _ old new fresh⟩

end Flowchart
