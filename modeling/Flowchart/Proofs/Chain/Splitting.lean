import Flowchart.Proofs.Line

/-!
What splitting a chain leaves. A line with an arrow between blanks comes apart into operands that
show something, each the end of one link and the start of the next. Written with one space on either
side of each arrow they are the line again, but for the blanks around its arrows, and they come
apart as before.
-/
namespace Flowchart.Chain

/-! ### One space on either side -/

/-- A text with each arrow between blanks, from left to right, written with one space on either
side. -/
inductive SingleSpaced : Text → Text → Prop
  | nil : SingleSpaced [] []
  | keep {c : Char} {rest other : Text}
    (plain : ∀ arrow after, ¬Spaced (c :: rest) arrow after) (behind : SingleSpaced rest other) :
    SingleSpaced (c :: rest) (c :: other)
  | arrow {text after other : Text} {arrow : Arrow} (spaced : Spaced text arrow after)
    (behind : SingleSpaced after other) : SingleSpaced text (' ' :: arrow.mark :: ' ' :: other)

/-- The arrows of a chain, each with its operand. -/
def tail (more : List (Arrow × Text)) : Text :=
  more.flatMap fun entry => ' ' :: entry.1.mark :: ' ' :: entry.2

theorem split_nil : split [] = ([], []) := by
  rw [split]
  rfl

theorem arrow?_eq_none_iff {text : Text} :
    arrow? text = none ↔ ∀ arrow after, ¬Spaced text arrow after := by
  rw [Option.eq_none_iff_forall_ne_some]
  constructor
  · intro none arrow after spaced
    exact none (arrow, after) (arrow?_eq_some_iff.mpr spaced)
  · intro plain found same
    exact plain found.1 found.2 (arrow?_eq_some_iff.mp same)

theorem singleSpaced_split (text : Text) :
    SingleSpaced text ((split text).1 ++ tail (split text).2) := by
  fun_induction split text with
  | case1 text arrow after found shorter operand more shown ih =>
    rw [shown] at ih
    exact .arrow (spaced_of_arrow? found) ih
  | case2 => exact .nil
  | case3 c rest plain operand more shown ih =>
    rw [shown] at ih
    exact .keep (arrow?_eq_none_iff.mp plain) ih

theorem singleSpaced_iff {text other : Text} :
    SingleSpaced text other ↔ other = (split text).1 ++ tail (split text).2 := by
  constructor
  · intro spaced
    induction spaced with
    | nil => rw [split_nil]; rfl
    | keep plain _ ih => rw [split_cons (arrow?_eq_none_iff.mpr plain), ih]; rfl
    | arrow spaced _ ih => rw [split_of_arrow (arrow?_eq_some_iff.mpr spaced), ih]; rfl
  · rintro rfl
    exact singleSpaced_split text

/-! ### Splitting again -/

theorem arrow?_of_visible {text : Text} (visible : startsBlank text = false) :
    arrow? text = none := by
  rw [arrow?, visible]
  rfl

theorem arrow?_cons_of_blanks {c : Char} {rest : Text} (blank : Text.isBlank c = true)
    (starts : startsBlank rest = true) : arrow? (c :: rest) = arrow? rest := by
  have here : startsBlank (c :: rest) = true := blank
  rw [arrow?, arrow?, here, starts, Text.trimLeft_cons_of_blank rest blank]

/-- Behind a blank, what can be seen is an arrow only if another blank follows. -/
theorem arrow?_cons_cons {c d : Char} (blank : Text.isBlank c = true)
    (visible : Text.isBlank d = false) (after : Text) :
    arrow? (c :: d :: after) =
      if startsBlank after then (Arrow.ofMark? d).map fun arrow => (arrow, Text.trimLeft after)
      else none := by
  have here : startsBlank (c :: d :: after) = true := blank
  simp [arrow?, here, Text.trimLeft_cons_of_blank _ blank,
    Text.trimLeft_cons_of_visible _ visible]

namespace SingleSpaced

variable {text other : Text}

theorem starts (spaced : SingleSpaced text other) : startsBlank other = startsBlank text := by
  cases spaced with
  | nil => rfl
  | keep => rfl
  | arrow spaced =>
    obtain ⟨gap, space, rfl, gapBlank, _, gapped, _⟩ := spaced
    rw [startsBlank_append gapBlank gapped]
    rfl

/-- Where no arrow begins, none begins afterwards. -/
theorem arrow?_eq_none (spaced : SingleSpaced text other) (plain : arrow? text = none) :
    arrow? other = none := by
  induction spaced with
  | nil => exact plain
  | arrow spaced =>
    rw [arrow?_eq_some_iff.mpr spaced] at plain
    contradiction
  | @keep c rest other _ behind ih =>
    by_cases blank : Text.isBlank c = true
    · by_cases starts : startsBlank rest = true
      · rw [arrow?_cons_of_blanks blank starts] at plain
        rw [arrow?_cons_of_blanks blank (behind.starts.trans starts)]
        exact ih plain
      · -- The character behind the blank is kept, and so is whether a blank follows it.
        have visible : startsBlank rest = false := Bool.eq_false_iff.mpr starts
        cases behind with
        | nil => exact plain
        | arrow spaced =>
          have found := arrow?_eq_some_iff.mpr spaced
          rw [arrow?_of_visible visible] at found
          contradiction
        | keep _ behind =>
          rw [arrow?_cons_cons blank visible] at plain ⊢
          simpa [behind.starts] using plain
    · exact arrow?_of_visible (Bool.eq_false_iff.mpr blank)

/-- The same operands and arrows. -/
theorem split_eq (spaced : SingleSpaced text other) : split other = split text := by
  induction spaced with
  | nil => rfl
  | keep plain behind ih =>
    have none := arrow?_eq_none_iff.mpr plain
    rw [split_cons none, split_cons ((SingleSpaced.keep plain behind).arrow?_eq_none none), ih]
  | arrow spaced behind ih =>
    obtain ⟨_, _, _, _, _, _, _, visible⟩ := id spaced
    rw [split_of_arrow (arrow?_eq_some_iff.mpr spaced),
      split_of_arrow (arrow?_mark _ (behind.starts.trans visible)), ih]

end SingleSpaced

/-! ### Operands -/

theorem head?_split {text : Text} (visible : startsBlank text = false) :
    (split text).1.head? = text.head? := by
  cases text with
  | nil => rw [split_nil]
  | cons c rest => rw [split_cons (arrow?_of_visible visible)]; rfl

theorem arrow?_of_split_eq_nil {text : Text} (nonempty : text ≠ []) (empty : (split text).1 = []) :
    arrow? text ≠ none := by
  intro plain
  obtain ⟨c, rest, rfl⟩ := List.exists_cons_of_ne_nil nonempty
  rw [split_cons plain] at empty
  contradiction

/-- A blank that no arrow takes does not stand in front of one. -/
theorem visible_of_split_eq_nil {c : Char} {rest : Text} (plain : arrow? (c :: rest) = none)
    (nonempty : rest ≠ []) (empty : (split rest).1 = []) : Text.isBlank c = false := by
  by_contra seen
  have blank : Text.isBlank c = true := eq_true_of_ne_false seen
  have arrow := arrow?_of_split_eq_nil nonempty empty
  have starts : startsBlank rest = true := by
    by_contra none
    exact arrow (arrow?_of_visible (Bool.eq_false_iff.mpr none))
  rw [arrow?_cons_of_blanks blank starts] at plain
  exact arrow plain

theorem head_visible {text : Text} (visible : startsBlank text = false) :
    ∀ c ∈ text.head?, Text.isBlank c = false := by
  intro c found
  obtain ⟨rest, rfl⟩ := List.head?_eq_some_iff.mp found
  exact visible

theorem visible_end (front : Text) {back : Text} (nonempty : back ≠ [])
    (ends : ∀ c ∈ (front ++ back).getLast?, Text.isBlank c = false) :
    ∀ c ∈ back.getLast?, Text.isBlank c = false := by
  rwa [List.getLast?_append_of_ne_nil front nonempty] at ends

/-- The blanks in front of an arrow are taken with it, so that no operand ends with one. -/
theorem ends_split (text : Text) (ends : ∀ c ∈ text.getLast?, Text.isBlank c = false) :
    (∀ c ∈ (split text).1.getLast?, Text.isBlank c = false) ∧
      ∀ entry ∈ (split text).2, entry.2 ≠ [] ∧ Text.Trimmed entry.2 := by
  fun_induction split text with
  | case1 text arrow after found shorter operand more shown ih =>
    rw [shown] at ih
    obtain ⟨gap, space, rfl, -, spaceBlank, -, spaced, visible⟩ := spaced_of_arrow? found
    rw [List.append_cons] at ends
    have behind := visible_end _ (List.append_ne_nil_of_left_ne_nil spaced after) ends
    -- The last blank would be the end of the text if nothing came behind it.
    have goesOn : after ≠ [] := by
      rintro rfl
      rw [List.append_nil] at behind
      have blank := spaceBlank _ (List.getLast_mem spaced)
      rw [behind _ (List.getLast?_eq_some_getLast spaced)] at blank
      contradiction
    obtain ⟨ending, others⟩ := ih (visible_end space goesOn behind)
    have first : operand.head? = after.head? := by rw [← head?_split visible, shown]
    refine ⟨by simp, List.forall_mem_cons.mpr ⟨⟨?_, ?_⟩, others⟩⟩
    · rintro rfl
      exact goesOn (List.head?_eq_none_iff.mp first.symm)
    · exact Text.trimmed_of_ends (first ▸ head_visible visible) ending
  | case2 => simp
  | case3 c rest plain operand more shown ih =>
    rw [shown] at ih
    by_cases alone : rest = []
    · subst alone
      rw [split_nil] at shown
      obtain ⟨rfl, rfl⟩ := Prod.mk.inj shown
      exact ⟨ends, List.forall_mem_nil _⟩
    · obtain ⟨ending, others⟩ := ih (visible_end [c] alone ends)
      refine ⟨?_, others⟩
      by_cases empty : operand = []
      · have visible := visible_of_split_eq_nil plain alone (shown ▸ empty)
        simp [empty, visible]
      · rwa [← List.singleton_append, List.getLast?_append_of_ne_nil _ empty]

/-- The first operand begins where the line begins. -/
theorem operand_split {text : Text} (trimmed : Text.Trimmed text) (nonempty : text ≠ []) :
    ((split text).1 ≠ [] ∧ Text.Trimmed (split text).1) ∧
      ∀ entry ∈ (split text).2, entry.2 ≠ [] ∧ Text.Trimmed entry.2 := by
  have visible := startsBlank_of_trimmed trimmed
  have first := head?_split visible
  have last : ∀ c ∈ text.getLast?, Text.isBlank c = false := by
    rw [List.getLast?_eq_some_getLast nonempty]
    rintro c ⟨⟩
    exact trimmed.getLast_visible nonempty
  obtain ⟨ending, others⟩ := ends_split text last
  refine ⟨⟨?_, Text.trimmed_of_ends (first ▸ head_visible visible) ending⟩, others⟩
  intro empty
  rw [empty] at first
  exact nonempty (List.head?_eq_none_iff.mp first.symm)

theorem arrow?_of_split_snd_eq_nil {text : Text} (alone : (split text).2 = []) :
    ∀ rest, rest <:+ text → arrow? rest = none := by
  fun_induction split text with
  | case1 => contradiction
  | case2 plain =>
    intro rest suffix
    rwa [List.suffix_nil.mp suffix]
  | case3 c more plain operand others shown ih =>
    rw [shown] at ih
    intro rest suffix
    rcases List.suffix_cons_iff.mp suffix with rfl | later
    · exact plain
    · exact ih alone rest later

theorem split_of_spacedArrow {text : Text} (spaced : Line.hasSpacedArrow text = true) :
    (split text).2 ≠ [] := by
  have found (arrow : Arrow) (back : Text) :
      arrow? (' ' :: arrow.mark :: ' ' :: back) ≠ none := by
    rw [arrow?_cons_cons (by decide) (isBlank_mark arrow)]
    cases arrow <;> simp [startsBlank, Arrow.ofMark?, Arrow.mark] <;> decide
  intro alone
  have none := arrow?_of_split_snd_eq_nil alone
  rw [Line.hasSpacedArrow, Bool.or_eq_true, Text.occursIn_iff, Text.occursIn_iff] at spaced
  rcases spaced with ⟨front, back, joined⟩ | ⟨front, back, joined⟩
  · rw [List.append_assoc] at joined
    exact found .forward back (none _ ⟨front, joined⟩)
  · rw [List.append_assoc] at joined
    exact found .backward back (none _ ⟨front, joined⟩)

/-! ### Links -/

/-- The operands of a chain, with the arrows between them. -/
def joined : List Link → Text
  | [] => []
  | first :: rest => first.left ++
      (first :: rest).flatMap fun link => ' ' :: link.arrow.mark :: ' ' :: link.right

theorem flatMap_pair (left : Text) (more : List (Arrow × Text)) :
    (pair left more).flatMap (fun link => ' ' :: link.arrow.mark :: ' ' :: link.right) =
      tail more := by
  induction more generalizing left with
  | nil => rfl
  | cons entry rest ih =>
    rw [pair, List.flatMap_cons, ih, tail, tail, List.flatMap_cons]

theorem joined_pair (left : Text) {more : List (Arrow × Text)} (nonempty : more ≠ []) :
    joined (pair left more) = left ++ tail more := by
  obtain ⟨entry, rest, rfl⟩ := List.exists_cons_of_ne_nil nonempty
  rw [← flatMap_pair left]
  rfl

theorem isChain_pair (left : Text) (more : List (Arrow × Text)) :
    (pair left more).IsChain fun link next => link.right = next.left := by
  induction more generalizing left with
  | nil => exact .nil
  | cons entry rest ih =>
    cases rest with
    | nil => exact .singleton _
    | cons next others => exact .cons_cons rfl (ih entry.2)

theorem left_of_mem_pair {left : Text} {more : List (Arrow × Text)} {link : Link}
    (member : link ∈ pair left more) : link.left = left ∨ ∃ entry ∈ more, link.left = entry.2 := by
  induction more generalizing left with
  | nil => exact absurd member List.not_mem_nil
  | cons entry rest ih =>
    rcases List.mem_cons.mp member with rfl | later
    · exact .inl rfl
    · rcases ih later with here | ⟨found, known, same⟩
      · exact .inr ⟨entry, List.mem_cons_self, here⟩
      · exact .inr ⟨found, List.mem_cons_of_mem entry known, same⟩

theorem forall_pair {P : Text → Prop} {left : Text} {more : List (Arrow × Text)} (first : P left)
    (others : ∀ entry ∈ more, P entry.2) : ∀ link ∈ pair left more, P link.left ∧ P link.right := by
  induction more generalizing left with
  | nil => exact List.forall_mem_nil _
  | cons entry rest ih =>
    obtain ⟨here, later⟩ := List.forall_mem_cons.mp others
    exact List.forall_mem_cons.mpr ⟨⟨first, here⟩, ih here later⟩

/-- The operands of a trimmed line are trimmed as they stand. -/
theorem links_eq {text : Text} (trimmed : Text.Trimmed text) (nonempty : text ≠ []) :
    links text = pair (split text).1 (split text).2 := by
  obtain ⟨⟨-, first⟩, others⟩ := operand_split trimmed nonempty
  have kept : ∀ entry ∈ (split text).2, (entry.1, Text.trim entry.2) = id entry :=
    fun entry known => Prod.ext rfl (others entry known).2
  calc
    links text
    _ = pair (Text.trim (split text).1)
        ((split text).2.map fun entry => (entry.1, Text.trim entry.2)) := rfl
    _ = pair (Text.trim (split text).1) (split text).2 := by
      rw [List.map_congr_left kept, List.map_id]
    _ = pair (split text).1 (split text).2 := congrArg (pair · _) first

theorem operands_ne_nil {line : Text} (trimmed : Text.Trimmed line) :
    ∀ link ∈ links line, link.left ≠ [] ∧ link.right ≠ [] := by
  by_cases empty : line = []
  · subst empty
    rw [links, split_nil]
    exact List.forall_mem_nil _
  · obtain ⟨⟨first, -⟩, others⟩ := operand_split trimmed empty
    rw [links_eq trimmed empty]
    exact forall_pair (P := (· ≠ [])) first fun entry known => (others entry known).1

/-- What splitting a chain keeps of its line. -/
structure Lossless (line : Text) : Prop where
  linked : links line ≠ []
  operand : ∀ link ∈ links line, (link.left ≠ [] ∧ Text.Trimmed link.left) ∧
    link.right ≠ [] ∧ Text.Trimmed link.right
  /-- Each link begins with the operand that the one before it ends with. -/
  connected : (links line).IsChain fun link next => link.right = next.left
  /-- Joined again, the operands are the line with one space around each of its arrows. -/
  singleSpaced : ∀ other, SingleSpaced line other ↔ other = joined (links line)
  stable : links (joined (links line)) = links line
  edged : edges line ≠ []

theorem linked_of_spacedArrow {line : Text} (trimmed : Text.Trimmed line) (nonempty : line ≠ [])
    (spaced : Line.hasSpacedArrow line = true) : links line ≠ [] := by
  obtain ⟨entry, rest, shown⟩ := List.exists_cons_of_ne_nil (split_of_spacedArrow spaced)
  rw [links_eq trimmed nonempty, shown]
  exact List.cons_ne_nil _ _

/-- Every line that is taken for a chain comes apart into links without loss. -/
theorem links_lossless {line : Text} (clean : Line.Clean line)
    (relationship : Line.kind line = .relationship) : Lossless line := by
  have spaced : Line.hasSpacedArrow line = true := by grind [Line.kind]
  have nonempty : line ≠ [] := by
    rintro rfl
    contradiction
  obtain ⟨first, others⟩ := operand_split clean.1 nonempty
  have made := links_eq clean.1 nonempty
  have linked := linked_of_spacedArrow clean.1 nonempty spaced
  have written : joined (links line) = (split line).1 ++ tail (split line).2 := by
    rw [made, joined_pair _ (split_of_spacedArrow spaced)]
  constructor
  case linked => exact linked
  case operand =>
    intro link member
    rw [made] at member
    obtain ⟨entry, known, right⟩ := right_of_mem_pair member
    refine ⟨?_, right ▸ others entry known⟩
    rcases left_of_mem_pair member with here | ⟨before, there, left⟩
    · exact here ▸ first
    · exact left ▸ others before there
  case connected => exact made ▸ isChain_pair _ _
  case singleSpaced =>
    intro other
    rw [written, singleSpaced_iff]
  case stable =>
    have again : SingleSpaced line (joined (links line)) := written ▸ singleSpaced_split line
    rw [links, again.split_eq]
    rfl
  case edged => exact mt List.map_eq_nil_iff.mp linked

/-- An arrow behind an arrow, other blanks than spaces, and an arrow at the end. -/
def crossed : Text := "a > > b\t<\u2003 c <".toList

theorem links_lossless_crossed :
    Line.Clean crossed ∧ Line.kind crossed = .relationship ∧ Lossless crossed := by
  have clean : Line.Clean crossed := ⟨(by decide : Text.trim crossed = crossed), by decide⟩
  have relationship : Line.kind crossed = .relationship := by decide
  exact ⟨clean, relationship, links_lossless clean relationship⟩

example : joined (links crossed) = "a > > b < c <".toList := by
  cbv

end Flowchart.Chain
