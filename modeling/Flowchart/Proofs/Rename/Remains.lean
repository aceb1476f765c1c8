import Flowchart.Proofs.Rename.Scan

/-!
What renaming leaves of the old label. A pass goes on behind the text that an occurrence took, so it
misses a label at a place only if an occurrence in front of it has taken a part of what leads up to
the label.
-/
namespace Flowchart

open Place (Label Loose)

/-- A label at a place of a text: what is above, what leads up to the label, and what follows it. A
text comes apart where it starts and at its marks. -/
structure Place.Occurs (place : Place) (label text above lead below : Text) : Prop where
  parts : text = above ++ (lead ++ (label ++ below))
  cut : above = [] ∨ (∃ front mark, above = front ++ [mark] ∧ mark ∈ marks) ∨
    ∃ mark rest, lead = mark :: rest ∧ mark ∈ marks
  leads : (lead, label ++ below) ∈
    place.leads (startsLine true above) (lead ++ (label ++ below))
  ends : (place.trail? below).isSome

namespace Skeleton

variable {α : Type} {spelling : α → Label} {pieces front behind rest : List (Piece α)}
  {place : Place} {label old new : Label} {atStart : Bool} {text above lead trail below : Text}
  {k : α} {hits : List α}

/-- At its marks a text comes apart into spelled pieces. -/
theorem split_at_mark (same : spell spelling pieces = above ++ below)
    (cut : above = [] ∨ (∃ front mark, above = front ++ [mark] ∧ mark ∈ Place.marks) ∨
      ∃ mark rest, below = mark :: rest ∧ mark ∈ Place.marks) :
    ∃ front behind, pieces = front ++ behind ∧ spell spelling front = above ∧
      spell spelling behind = below := by
  rcases cut with rfl | ⟨before, mark, rfl, known⟩ | ⟨mark, rest, rfl, known⟩
  · exact ⟨[], pieces, rfl, rfl, same⟩
  · rw [List.append_assoc, List.singleton_append] at same
    obtain ⟨front, behind, rfl, first, later⟩ := split_mark known same
    refine ⟨front ++ [.loose mark], behind, ?_, ?_, later⟩
    · rw [List.append_assoc, List.singleton_append]
    · rw [spell_append, first]
      rfl
  · obtain ⟨front, behind, rfl, first, later⟩ := split_mark known same
    exact ⟨front, .loose mark :: behind, rfl, first, congrArg (mark :: ·) later⟩

/-- A label at a place of a text stands there in the skeleton. -/
theorem stands_of_occurs (blind : place.Blind) (apart : Apart pieces)
    (occurs : place.Occurs label.text (spell spelling pieces) above lead below) :
    ∃ front behind k trail rest, pieces = front ++ behind ∧ spell spelling front = above ∧
      Stands place (startsLine true front) behind lead k trail rest ∧ spelling k = label := by
  have cut : above = [] ∨ (∃ front mark, above = front ++ [mark] ∧ mark ∈ Place.marks) ∨
      ∃ mark rest, lead ++ (label.text ++ below) = mark :: rest ∧ mark ∈ Place.marks := by
    refine occurs.cut.imp_right (Or.imp_right ?_)
    intro ⟨mark, rest, starts, known⟩
    exact ⟨mark, rest ++ (label.text ++ below), by rw [starts]; rfl, known⟩
  obtain ⟨front, behind, rfl, first, later⟩ := split_at_mark occurs.parts cut
  obtain ⟨⟨trail, after⟩, ends⟩ := Option.isSome_iff_exists.mp occurs.ends
  have leads := occurs.leads
  rw [← first, ← startsLine_spell, ← later] at leads
  obtain ⟨k, rest, stands, named, _⟩ :=
    stands_of_spelling blind apart.of_append later leads ends
  exact ⟨front, behind, k, trail, rest, rfl, first, stands, named⟩

/-! ### What a pass misses -/

theorem loose_eq_append {lead : Text} {front behind : List (Piece α)}
    (same : loose lead = front ++ behind) :
    ∃ first later, lead = first ++ later ∧ front = loose first ∧ behind = loose later := by
  obtain ⟨first, later, rfl, rfl, rfl⟩ := List.map_eq_append_iff.mp same
  exact ⟨first, later, rfl, rfl, rfl⟩

/-- Loose characters in front of others and a label are the first of these. -/
theorem loose_append_inj {ending lead : Text} {more later : List (Piece α)}
    (same : loose ending ++ more = loose lead ++ .label k :: later) :
    ∃ rest, lead = ending ++ rest ∧ more = loose rest ++ .label k :: later := by
  induction ending generalizing lead with
  | nil => exact ⟨lead, rfl, same⟩
  | cons c ending ih =>
    cases lead with
    | nil => simp [loose] at same
    | cons d lead =>
      obtain ⟨here, behind⟩ := List.cons.inj same
      obtain ⟨rest, rfl, split⟩ := ih behind
      exact ⟨rest, by rw [Piece.loose.inj here]; rfl, split⟩

/-- What leads up to the label is in part what followed another occurrence. -/
theorem Scan.missed (scan : Scan place label spelling atStart pieces hits)
    (split : pieces = front ++ behind)
    (stands : Stands place (startsLine atStart front) behind lead k trail rest)
    (named : spelling k = label) (missing : k ∉ hits) :
    ∃ before i mid ending later, lead = ending ++ later ∧ ending ≠ [] ∧ i ∈ hits ∧
      front = before ++ .label i :: loose mid ∧
      ∀ other, place.trail? (mid ++ spell other behind) =
        some (mid ++ ending, later ++ spell other (.label k :: (loose trail ++ rest))) := by
  induction scan generalizing front with
  | nil =>
    obtain ⟨-, rfl⟩ := List.append_eq_nil_iff.mp split.symm
    have nothing := stands.split
    simp at nothing
  | @skip atStart piece more hits absent _ ih =>
    cases front with
    | nil =>
      rw [List.nil_append] at split
      exact absurd named (absent lead k trail rest (split ▸ stands))
    | cons first front =>
      obtain ⟨rfl, tails⟩ := List.cons.inj split
      have stands : Stands place (startsLine (startsLine atStart [piece]) front) behind lead k
          trail rest := by
        rw [← startsLine_append]
        exact stands
      obtain ⟨before, i, mid, ending, later, parts, shown, hit, rfl, taken⟩ :=
        ih tails stands missing
      exact ⟨piece :: before, i, mid, ending, later, parts, shown, hit, rfl, taken⟩
  | @hit atStart pieces more start ends j hits found _ _ ih =>
    obtain ⟨other, missing⟩ := not_or.mp (mt List.mem_cons.mpr missing)
    -- A label directly behind loose characters would be the one that was hit.
    have apart (first : Text) (same : behind = loose first ++ .label j :: (loose ends ++ more)) :
        False := by
      obtain ⟨-, same, -⟩ := loose_label_inj (stands.split.symm.trans same)
      exact other same
    rw [found.split] at split
    rcases Cut.append_cases split with ⟨mid, shorter, tails⟩ | ⟨mid, _, longer, tails⟩
    · cases mid with
      | nil => exact (apart [] tails.symm).elim
      | cons piece mid =>
        obtain ⟨rfl, same⟩ := List.cons.inj tails
        rcases Cut.append_cases same with ⟨next, inner, tails⟩ | ⟨next, shown, inner, tails⟩
        · -- The label is behind all that the hit has taken.
          have stands : Stands place (startsLine (Place.startsLine false ends) next) behind lead k
              trail rest := by
            rw [shorter, inner, startsLine_append, startsLine, startsLine_append,
              startsLine_spell false spelling (loose ends), spell_loose] at stands
            exact stands
          obtain ⟨before, i, part, ending, later, parts, shown, hit, rfl, taken⟩ :=
            ih tails stands missing
          refine ⟨loose start ++ .label j :: (loose ends ++ before), i, part, ending, later, parts,
            shown, List.mem_cons_of_mem j hit, ?_, taken⟩
          rw [shorter, inner]
          simp
        · obtain ⟨part, ending, rfl, rfl, rfl⟩ := loose_eq_append inner
          obtain ⟨later, parts, split⟩ := loose_append_inj (tails.symm.trans stands.split)
          have shown : ending ≠ [] := by
            rintro rfl
            exact shown rfl
          refine ⟨loose start, j, part, ending, later, parts, shown, List.mem_cons_self, shorter,
            ?_⟩
          intro other
          have taken := found.trail other
          rw [split] at taken
          rw [tails, split]
          simpa using taken
    · obtain ⟨first, later, -, -, rfl⟩ := loose_eq_append longer
      exact (apart later tails).elim

/-- Every place has its pass. What it hits is new in the end, and what is old in the end it sees as
old and misses. -/
theorem Passes.scan_of_mem [DecidableEq α] {places : List Place} {before after : α → Label}
    (passes : Passes old new pieces places before after) (different : old ≠ new)
    (member : place ∈ places) :
    ∃ spelling hits, Scan place old spelling true pieces hits ∧
      (∀ k ∈ hits, after k = new) ∧ (∀ k, after k = old → spelling k = old) ∧
      ∀ k, spelling k = old → before k = old := by
  induction passes with
  | nil => contradiction
  | @cons first places before after hits scan later ih =>
    have still : ∀ k, relabel before hits new k = old → before k = old := by
      intro k same
      by_cases hit : k ∈ hits
      · exact scan.named k hit
      · exact relabel_eq before hits new hit ▸ same
    rcases List.mem_cons.mp member with rfl | behind
    · refine ⟨before, hits, scan, ?_, ?_, fun k same => same⟩
      · intro k hit
        have renamed : relabel before hits new k = new := if_pos hit
        rcases later.kept k with same | ⟨same, _⟩
        · exact same.trans renamed
        · exact absurd (same.symm.trans renamed) different
      · intro k last
        rcases later.kept k with same | ⟨same, _⟩
        · exact still k (same.symm.trans last)
        · exact still k same
    · obtain ⟨spelling, others, found, hit, missed, earlier⟩ := ih behind
      exact ⟨spelling, others, found, hit, missed, fun k same => still k (earlier k same)⟩

end Skeleton

open Skeleton in
/-- Where renaming leaves the old label at a place, the new one is in front of it, and the source
has the old one twice: what led up to the second one was in part what followed the first one. -/
theorem Place.Occurs.behind_another {place : Place} {old new : Label}
    {source above lead below : Text} (different : old ≠ new) (member : place ∈ Place.inOrder)
    (occurs : place.Occurs old.text (rename source old.text new.text) above lead below) :
    ∃ front before mid ending later trail rest, lead = ending ++ later ∧ ending ≠ [] ∧
      above = before ++ (new.text ++ mid) ∧
      source = front ++ (old.text ++ (mid ++ (lead ++ (old.text ++ (trail ++ rest))))) ∧
      place.trail? (mid ++ (lead ++ (old.text ++ (trail ++ rest)))) =
        some (mid ++ ending, later ++ (old.text ++ (trail ++ rest))) ∧
      place.trail? (trail ++ rest) = some (trail, rest) := by
  have blind : place.Blind := Place.inOrder_blind place member
  obtain ⟨pieces, spelling, apart, distinct, rfl, _⟩ := exists_skeleton source old
  obtain ⟨after, passes⟩ := exists_passes old new pieces Place.inOrder spelling
  rw [passes.rename apart distinct different] at occurs
  obtain ⟨front, behind, k, trail, rest, split, shows, stands, named⟩ :=
    stands_of_occurs blind apart occurs
  obtain ⟨seen, hits, scan, renamed, still, earlier⟩ := passes.scan_of_mem different member
  have missing : k ∉ hits := fun hit => different (named.symm.trans (renamed k hit))
  obtain ⟨before, i, mid, ending, later, parts, shown, hit, rfl, taken⟩ :=
    scan.missed split stands (still k named) missing
  have second : spelling k = old := earlier k (still k named)
  have first : spelling i = old := earlier i (scan.named i hit)
  have spelled : spell spelling behind =
      lead ++ (old.text ++ (trail ++ spell spelling rest)) := by
    rw [stands.split]
    simp [second]
  refine ⟨spell spelling before, spell after before, mid, ending, later, trail,
    spell spelling rest, parts, shown, ?_, ?_, ?_, ?_⟩
  · rw [← shows]
    simp [renamed i hit]
  · rw [split, ← spelled]
    simp [first]
  · have ends := taken spelling
    rw [spelled] at ends
    simpa [second] using ends
  · simpa using stands.trail spelling

end Flowchart
