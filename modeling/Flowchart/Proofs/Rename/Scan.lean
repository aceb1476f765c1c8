import Flowchart.Proofs.Rename.Blind

/-!
One pass over a skeleton. Where a label stands at a place does not depend on how the labels are
spelled; the pass goes from left to right and hits those of the labels there that are spelled like
the old one. So the same labels are hit again in a text where they, and no others, are spelled like
some other label.
-/
namespace Flowchart

namespace Place

variable {place : Place} {old new text lead trail rest : Text} {atStart : Bool} {c : Char}

theorem replace_of_some (found : place.occurrence? old atStart text = some (lead, trail, rest))
    (shorter : rest.length < text.length) :
    place.replace old new atStart text =
      lead ++ new ++ trail ++
        place.replace old new (startsLine atStart (lead ++ old ++ trail)) rest := by
  rw [replace.eq_def, found]
  exact if_pos shorter

theorem replace_of_none (none : place.occurrence? old atStart (c :: rest) = none) :
    place.replace old new atStart (c :: rest) = c :: place.replace old new (c == '\n') rest := by
  rw [replace.eq_def, none]

theorem startsLine_append (before : Bool) (front behind : Text) :
    startsLine before (front ++ behind) = startsLine (startsLine before front) behind := by
  simp only [startsLine, List.getLast?_append]
  cases behind.getLast? <;> rfl

/-- The places in the order of the passes. -/
def inOrder : List Place := [declaration, leftOperand, rightOperand]

theorem inOrder_blind : ∀ place ∈ inOrder, place.Blind := by
  simp [inOrder, declaration_blind, leftOperand_blind, rightOperand_blind]

theorem replace_nil (none : place.occurrence? old atStart [] = none) :
    place.replace old new atStart [] = [] := by
  rw [replace.eq_def, none]

end Place

namespace Skeleton

open Place (Label Loose)

variable {α : Type} {spelling other : α → Label} {pieces rest : List (Piece α)} {place : Place}
  {label old new : Label} {atStart : Bool} {lead trail next after : Text} {k : α} {hits : List α}

/-- Spellings of one skeleton look alike. -/
theorem alike_spell (apart : Apart pieces) (spelling other : α → Label) :
    Text.Alike (spell spelling pieces) (spell other pieces) := by
  induction pieces with
  | nil => exact .nil
  | cons piece rest ih =>
    cases piece with
    | loose c => exact .loose apart.1 (ih apart.2)
    | label a =>
      obtain ⟨c, text, starts⟩ := List.exists_cons_of_ne_nil (spelling a).nonempty
      obtain ⟨d, more, also⟩ := List.exists_cons_of_ne_nil (other a).nonempty
      rw [spell_label_cons, spell_label_cons, starts, also]
      exact .label (not_loose_of_head starts) (not_loose_of_head also) _ _

theorem loose_label_inj {first second : Text} {a b : α} {behind more : List (Piece α)}
    (same : loose first ++ .label a :: behind = loose second ++ .label b :: more) :
    first = second ∧ a = b ∧ behind = more := by
  induction first generalizing second with
  | nil =>
    cases second with
    | nil => simpa [loose] using same
    | cons d second => simp [loose] at same
  | cons c first ih =>
    cases second with
    | nil => simp [loose] at same
    | cons d second =>
      obtain ⟨here, later⟩ := List.cons.inj same
      obtain ⟨fronts, labels, tails⟩ := ih later
      exact ⟨by rw [Piece.loose.inj here, fronts], labels, tails⟩

/-! ### Line starts -/

/-- Whether a line starts behind pieces, where `before` says it for the place in front of them. -/
def startsLine (before : Bool) : List (Piece α) → Bool
  | [] => before
  | .loose c :: rest => startsLine (c == '\n') rest
  | .label _ :: rest => startsLine false rest

theorem startsLine_append (before : Bool) (first more : List (Piece α)) :
    startsLine before (first ++ more) = startsLine (startsLine before first) more := by
  induction first generalizing before with
  | nil => rfl
  | cons piece rest ih => cases piece <;> exact ih _

theorem Label.ne_feed (label : Label) {c : Char} (member : c ∈ label.text) : c ≠ '\n' := by
  intro feed
  exact label.free '\n' (by decide) (feed ▸ member)

/-- No line starts right behind a label. -/
theorem startsLine_behind (before : Bool) (lead : Text) (label : Label) (trail : Text) :
    Place.startsLine before (lead ++ label.text ++ trail) = Place.startsLine false trail := by
  rw [Place.startsLine, Place.startsLine, List.getLast?_append]
  cases trail.getLast? with
  | some c => rfl
  | none =>
    have last := List.getLast?_eq_some_getLast label.nonempty
    rw [List.getLast?_append, last]
    exact beq_eq_false_iff_ne.mpr (Label.ne_feed label (List.getLast_mem label.nonempty))

/-- Whether a line starts can be seen in the text as well. -/
theorem startsLine_spell (before : Bool) (spelling : α → Label) (pieces : List (Piece α)) :
    startsLine before pieces = Place.startsLine before (spell spelling pieces) := by
  induction pieces generalizing before with
  | nil => rfl
  | cons piece rest ih =>
    cases piece with
    | loose c =>
      rw [startsLine, ih, spell_loose_cons, ← List.singleton_append, Place.startsLine_append]
      rfl
    | label a =>
      rw [startsLine, ih, spell_label_cons]
      exact (startsLine_behind before [] (spelling a) _).symm

/-! ### Labels at places -/

/-- The first label of the pieces stands at the place, however the labels are spelled. -/
structure Stands (place : Place) (atStart : Bool) (pieces : List (Piece α)) (lead : Text) (k : α)
    (trail : Text) (rest : List (Piece α)) : Prop where
  split : pieces = loose lead ++ .label k :: (loose trail ++ rest)
  lead : ∀ spelling, (lead, spell spelling (.label k :: (loose trail ++ rest))) ∈
    place.leads atStart (spell spelling pieces)
  trail : ∀ spelling, place.trail? (spell spelling (loose trail ++ rest)) =
    some (trail, spell spelling rest)

theorem Stands.length_lt (stands : Stands place atStart pieces lead k trail rest) :
    rest.length < pieces.length := by
  rw [stands.split]
  simp only [List.length_append, List.length_cons]
  omega

theorem Stands.apart (stands : Stands place atStart pieces lead k trail rest)
    (apart : Apart pieces) : Apart rest := by
  rw [stands.split] at apart
  exact (apart.of_append).2.of_append

theorem Stands.unique (spelling : α → Label) {also more : Text} {other : α}
    {others : List (Piece α)}
    (stands : Stands place atStart pieces lead k trail rest)
    (found : Stands place atStart pieces also other more others) :
    lead = also ∧ k = other ∧ trail = more ∧ rest = others := by
  obtain ⟨leads, labels, tails⟩ := loose_label_inj (stands.split.symm.trans found.split)
  have ends := found.trail spelling
  rw [← tails, stands.trail spelling] at ends
  have trails : trail = more := (Prod.mk.inj (Option.some.inj ends)).1
  exact ⟨leads, labels, trails, List.append_cancel_left (trails ▸ tails)⟩

/-- One spelling shows where a label stands. -/
theorem stands_of_spelling (blind : place.Blind) (apart : Apart pieces)
    (parts : spell spelling pieces = lead ++ (label.text ++ next))
    (leads : (lead, label.text ++ next) ∈ place.leads atStart (spell spelling pieces))
    (ends : place.trail? next = some (trail, after)) :
    ∃ k rest, Stands place atStart pieces lead k trail rest ∧ spelling k = label ∧
      spell spelling rest = after := by
  -- No label goes on behind this one, as the place ends there.
  have bounded : Bounded next := by
    intro label front back rest split nonempty same
    rw [same, blind.trailInside rest split nonempty] at ends
    contradiction
  obtain ⟨k, more, rfl, rfl, rfl⟩ := split_label apart (blind.leadLoose leads) bounded parts
  obtain ⟨rest, rfl, remains⟩ := split_loose (blind.trailLoose ends) (blind.trail ends)
  refine ⟨k, rest, ⟨rfl, ?_, ?_⟩, rfl, remains⟩
  · intro other
    obtain ⟨⟨also, behind⟩, known, same, _⟩ := Place.exists_sameCut
      (blind.leadsAlike (alike_spell apart spelling other) atStart) leads
    have whole := blind.leads known
    dsimp only at same whole
    rw [← same, spell_append, spell_loose] at whole
    rw [← same, ← List.append_cancel_left whole] at known
    exact known
  · intro other
    have same := blind.trailAlike (alike_spell apart.of_append.2 spelling other)
    rw [ends] at same
    cases found : place.trail? (spell other (loose trail ++ rest)) with
    | none =>
      rw [found] at same
      cases same
    | some cut =>
      rw [found] at same
      cases same with
      | some same =>
        have whole := blind.trail found
        rw [← same.1, spell_append, spell_loose] at whole
        exact congrArg some (Prod.ext same.1.symm (List.append_cancel_left whole).symm)

theorem stands_of_occurrence? (blind : place.Blind) (apart : Apart pieces)
    (found : place.occurrence? label.text atStart (spell spelling pieces) =
      some (lead, trail, after)) :
    ∃ k rest, Stands place atStart pieces lead k trail rest ∧ spelling k = label ∧
      spell spelling rest = after := by
  obtain ⟨⟨front, behind⟩, leads, inner⟩ := List.exists_of_findSome?_eq_some found
  obtain ⟨next, dropped, inner⟩ := Option.bind_eq_some_iff.mp inner
  obtain ⟨⟨ending, remaining⟩, ends, same⟩ := Option.bind_eq_some_iff.mp inner
  cases same
  have shown : behind = label.text ++ next := Text.append_of_dropStart? dropped
  have parts : spell spelling pieces = lead ++ (label.text ++ next) := by
    rw [blind.leads leads, shown]
  exact stands_of_spelling blind apart parts (shown ▸ leads) ends

theorem occurrence?_of_stands (blind : place.Blind) (apart : Apart pieces)
    (stands : Stands place atStart pieces lead k trail rest) (named : spelling k = label) :
    place.occurrence? label.text atStart (spell spelling pieces) =
      some (lead, trail, spell spelling rest) := by
  have some : (place.occurrence? label.text atStart (spell spelling pieces)).isSome := by
    rw [Place.occurrence?, List.findSome?_isSome_iff]
    refine ⟨_, stands.lead spelling, ?_⟩
    have ends := stands.trail spelling
    rw [spell_append, spell_loose] at ends
    simp [named, Text.dropStart?_append, ends]
  obtain ⟨⟨also, more, after⟩, found⟩ := Option.isSome_iff_exists.mp some
  obtain ⟨other, others, first, _, spelled⟩ := stands_of_occurrence? blind apart found
  obtain ⟨rfl, -, rfl, rfl⟩ := stands.unique spelling first
  rw [found, spelled]

/-- No label with this spelling is the first one and stands at the place. -/
def Missing (place : Place) (label : Label) (spelling : α → Label) (atStart : Bool)
    (pieces : List (Piece α)) : Prop :=
  ∀ lead k trail rest, Stands place atStart pieces lead k trail rest → spelling k ≠ label

theorem Missing.occurrence? (missing : Missing place label spelling atStart pieces)
    (blind : place.Blind) (apart : Apart pieces) :
    place.occurrence? label.text atStart (spell spelling pieces) = none := by
  cases found : place.occurrence? label.text atStart (spell spelling pieces) with
  | none => rfl
  | some cut =>
    obtain ⟨k, rest, stands, named, _⟩ := stands_of_occurrence? blind apart found
    exact absurd named (missing _ k _ rest stands)

/-! ### The pass -/

/-- A pass over the pieces hits these labels. -/
inductive Scan (place : Place) (label : Label) (spelling : α → Label) :
    Bool → List (Piece α) → List α → Prop
  | nil {atStart : Bool} : Scan place label spelling atStart [] []
  | hit {atStart : Bool} {pieces rest : List (Piece α)} {lead trail : Text} {k : α}
    {hits : List α} (stands : Stands place atStart pieces lead k trail rest)
    (named : spelling k = label)
    (later : Scan place label spelling (Place.startsLine false trail) rest hits) :
    Scan place label spelling atStart pieces (k :: hits)
  | skip {atStart : Bool} {piece : Piece α} {rest : List (Piece α)} {hits : List α}
    (missing : Missing place label spelling atStart (piece :: rest))
    (later : Scan place label spelling (startsLine atStart [piece]) rest hits) :
    Scan place label spelling atStart (piece :: rest) hits

theorem exists_scan (place : Place) (label : Label) (spelling : α → Label) (atStart : Bool)
    (pieces : List (Piece α)) : ∃ hits, Scan place label spelling atStart pieces hits := by
  induction size : pieces.length using Nat.strong_induction_on generalizing atStart pieces with
  | _ n ih =>
    by_cases missing : Missing place label spelling atStart pieces
    · cases pieces with
      | nil => exact ⟨[], .nil⟩
      | cons piece rest =>
        obtain ⟨hits, later⟩ := ih rest.length (size ▸ Nat.lt_succ_self _)
          (startsLine atStart [piece]) rest rfl
        exact ⟨hits, .skip missing later⟩
    · simp only [Missing, not_forall, not_not] at missing
      obtain ⟨lead, k, trail, rest, stands, named⟩ := missing
      obtain ⟨hits, later⟩ := ih rest.length (size ▸ stands.length_lt)
        (Place.startsLine false trail) rest rfl
      exact ⟨k :: hits, .hit stands named later⟩

namespace Scan

theorem named (scan : Scan place label spelling atStart pieces hits) :
    ∀ k ∈ hits, spelling k = label := by
  induction scan with
  | nil => exact nofun
  | hit _ named _ ih => exact List.forall_mem_cons.mpr ⟨named, ih⟩
  | skip _ _ ih => exact ih

theorem mem_labels (scan : Scan place label spelling atStart pieces hits) :
    ∀ k ∈ hits, k ∈ labels pieces := by
  induction scan with
  | nil => exact nofun
  | hit stands _ _ ih =>
    intro j member
    rw [stands.split, labels_append, labels, labels_append]
    rcases List.mem_cons.mp member with rfl | later
    · exact List.mem_append_right _ List.mem_cons_self
    · exact List.mem_append_right _
        (List.mem_cons_of_mem _ (List.mem_append_right _ (ih j later)))
  | @skip _ piece _ _ _ _ ih =>
    intro j member
    cases piece with
    | loose c => exact ih j member
    | label a => exact List.mem_cons_of_mem a (ih j member)

/-- A pass for another label hits the same labels where they and no others are spelled so. -/
theorem respell (scan : Scan place old spelling atStart pieces hits)
    (hit : ∀ k ∈ hits, other k = new) (only : ∀ k, other k = new → spelling k = old) :
    Scan place new other atStart pieces hits := by
  induction scan with
  | nil => exact .nil
  | hit stands _ _ ih =>
    obtain ⟨here, later⟩ := List.forall_mem_cons.mp hit
    exact .hit stands here (ih later)
  | skip missing _ ih =>
    refine .skip ?_ (ih hit)
    intro lead k trail rest stands named
    exact missing lead k trail rest stands (only k named)

end Scan

/-! ### What the pass writes -/

/-- The labels that were hit get the new spelling. -/
def relabel [DecidableEq α] (spelling : α → Label) (hits : List α) (new : Label) (k : α) : Label :=
  if k ∈ hits then new else spelling k

variable [DecidableEq α]

theorem relabel_eq (spelling : α → Label) (hits : List α) (new : Label) {k : α}
    (other : k ∉ hits) : relabel spelling hits new k = spelling k := if_neg other

/-- No label is found behind its start. -/
theorem replace_inside (blind : place.Blind) (old : Text) {new rest front back : Text}
    (parts : label.text = front ++ back) :
    place.replace old new false (back ++ rest) = back ++ place.replace old new false rest := by
  induction back generalizing front with
  | nil => rfl
  | cons c back ih =>
    have none : place.occurrence? old false (c :: (back ++ rest)) = none := by
      rw [Place.occurrence?, ← List.cons_append,
        blind.leadsInside rest parts (List.cons_ne_nil c back)]
      rfl
    have single : c ≠ '\n' :=
      Label.ne_feed label (parts ▸ List.mem_append_right front List.mem_cons_self)
    have later := ih (parts.trans (List.append_cons front c back))
    rw [List.cons_append, Place.replace_of_none none, beq_eq_false_iff_ne.mpr single, later]
    rfl

theorem Scan.replace (scan : Scan place old spelling atStart pieces hits) (blind : place.Blind)
    (apart : Apart pieces) (distinct : (labels pieces).Nodup) (new : Label) :
    place.replace old.text new.text atStart (spell spelling pieces) =
      spell (relabel spelling hits new) pieces := by
  induction scan with
  | @nil atStart =>
    have missing : Missing place old spelling atStart [] := by
      intro lead k trail rest stands
      have split := stands.split
      simp at split
    exact Place.replace_nil (missing.occurrence? blind apart)
  | @hit atStart pieces rest lead trail k hits stands named later ih =>
    have found := occurrence?_of_stands blind apart stands named
    have split := stands.split
    have here : relabel spelling (k :: hits) new k = new := if_pos List.mem_cons_self
    have shorter : (spell spelling rest).length < (spell spelling pieces).length := by
      rw [Place.append_of_occurrence? blind.toCuts found]
      have shown := List.length_pos_of_ne_nil old.nonempty
      simp only [List.length_append]
      omega
    rw [split, labels_append, labels, labels_append] at distinct
    simp only [labels_loose, List.nil_append, List.nodup_cons] at distinct
    -- The label does not occur again.
    have behind : spell (relabel spelling (k :: hits) new) rest =
        spell (relabel spelling hits new) rest := by
      apply spell_congr
      intro a member
      have other : a ≠ k := ne_of_mem_of_not_mem member distinct.1
      simp [relabel, other]
    rw [Place.replace_of_some found shorter, startsLine_behind,
      ih (stands.apart apart) distinct.2, split]
    simp [here, behind]
  | @skip atStart piece rest hits missing later ih =>
    have none := missing.occurrence? blind apart
    cases piece with
    | loose c =>
      rw [spell_loose_cons] at none
      rw [spell_loose_cons, Place.replace_of_none none]
      exact congrArg (c :: ·) (ih apart.2 distinct)
    | label a =>
      rw [labels, List.nodup_cons] at distinct
      obtain ⟨c, text, starts⟩ := List.exists_cons_of_ne_nil (spelling a).nonempty
      have single : c ≠ '\n' := Label.ne_feed (spelling a) (starts ▸ List.mem_cons_self)
      have same : relabel spelling hits new a = spelling a :=
        relabel_eq spelling hits new fun member => distinct.1 (later.mem_labels a member)
      have parts : (spelling a).text = [c] ++ text := starts
      rw [spell_label_cons, starts, List.cons_append] at none
      rw [spell_label_cons, spell_label_cons, same, starts, List.cons_append,
        Place.replace_of_none none, beq_eq_false_iff_ne.mpr single,
        replace_inside blind old.text parts]
      exact congrArg (fun behind => c :: (text ++ behind)) (ih apart.2 distinct.2)

/-! ### Passes one after the other -/

/-- Passes for the places in their order, each over the spelling that the one before has left. -/
inductive Passes (old new : Label) (pieces : List (Piece α)) :
    List Place → (α → Label) → (α → Label) → Prop
  | nil {spelling : α → Label} : Passes old new pieces [] spelling spelling
  | cons {place : Place} {places : List Place} {before after : α → Label} {hits : List α}
    (scan : Scan place old before true pieces hits)
    (later : Passes old new pieces places (relabel before hits new) after) :
    Passes old new pieces (place :: places) before after

theorem exists_passes (old new : Label) (pieces : List (Piece α)) (places : List Place)
    (before : α → Label) : ∃ after, Passes old new pieces places before after := by
  induction places generalizing before with
  | nil => exact ⟨before, .nil⟩
  | cons place places ih =>
    obtain ⟨hits, scan⟩ := exists_scan place old before true pieces
    obtain ⟨after, later⟩ := ih (relabel before hits new)
    exact ⟨after, .cons scan later⟩

namespace Passes

variable {places : List Place} {before after : α → Label}

theorem foldl_replace (passes : Passes old new pieces places before after)
    (blind : ∀ place ∈ places, place.Blind) (apart : Apart pieces)
    (distinct : (labels pieces).Nodup) :
    places.foldl (fun text place => place.replace old.text new.text true text)
      (spell before pieces) = spell after pieces := by
  induction passes with
  | nil => rfl
  | cons scan _ ih =>
    obtain ⟨here, later⟩ := List.forall_mem_cons.mp blind
    rw [List.foldl_cons, scan.replace here apart distinct new, ih later]

/-- Nothing but old labels becomes new. -/
theorem kept (passes : Passes old new pieces places before after) (k : α) :
    after k = before k ∨ before k = old ∧ after k = new := by
  induction passes with
  | nil => exact .inl rfl
  | @cons _ _ before after hits scan _ ih =>
    by_cases member : k ∈ hits
    · refine .inr ⟨scan.named k member, ?_⟩
      have renamed : relabel before hits new k = new := if_pos member
      rcases ih with same | ⟨_, same⟩
      · exact same.trans renamed
      · exact same
    · rw [relabel_eq before hits new member] at ih
      exact ih

theorem rename (passes : Passes old new pieces Place.inOrder before after) (apart : Apart pieces)
    (distinct : (labels pieces).Nodup) (different : old ≠ new) :
    rename (spell before pieces) old.text new.text = spell after pieces := by
  rw [← passes.foldl_replace Place.inOrder_blind apart distinct]
  apply if_neg
  intro skipped
  rcases skipped with same | empty
  · exact different (Phrase.eq_of_text same)
  · rw [new.trimmed] at empty
    exact new.nonempty empty

end Passes

end Skeleton

end Flowchart
