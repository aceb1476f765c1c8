import Flowchart.Proofs.Ident
import Flowchart.Proofs.Markdown.Fences
import Mathlib.Data.List.Forall2

/-!
How the fence lines of a block are spelled, character by character: which lines open a block, with
the tag in any case, and which lines close it.
-/
namespace Flowchart

/-! ### Letters in any case -/

namespace Text

variable {c letter : Char}

/-- A character that is taken for a small letter where case is ignored. -/
def InAnyCase (c letter : Char) : Prop :=
  c = letter ∨ c = letter.toUpper ∨ letter = 's' ∧ c = '\u017f'

theorem toLower_of_not_isUpper (other : c.isUpper = false) : c.toLower = c :=
  dif_neg (of_decide_eq_false other)

theorem toLower_eq_iff (known : letter ∈ Fence.language) :
    c.toLower = letter ↔ c = letter ∨ c = letter.toUpper := by
  cases upper : c.isUpper with
  | false =>
    have table : (Fence.language.all fun letter => letter.toUpper.isUpper) = true := by decide
    have capital : letter.toUpper.isUpper = true := List.all_eq_true.mp table letter known
    have other : c ≠ letter.toUpper := by
      rintro rfl
      exact absurd (upper.symm.trans capital) Bool.false_ne_true
    rw [toLower_of_not_isUpper upper, or_iff_left other]
  | true =>
    have word : ((c.isUpper || c.isLower) || c.isDigit) = true := by
      rw [upper]
      rfl
    have row := Ident.forall_isAlphanum (P := fun c => c.isUpper = true →
      (Fence.language.all fun letter =>
        decide (c.toLower = letter ↔ c = letter ∨ c = letter.toUpper)) = true) (by decide) word
    exact of_decide_eq_true (List.all_eq_true.mp (row upper) letter known)

theorem sameLetter_iff (known : letter ∈ Fence.language) :
    sameLetter c letter = true ↔ InAnyCase c letter := by
  have table : (Fence.language.all fun letter => decide (letter ≠ 'k' ∧ letter ≠ '\u017f' ∧
      letter.toUpper ≠ '\u017f' ∧ letter ≠ '\u212a' ∧ letter.toUpper ≠ '\u212a' ∧
      lowerChar letter = letter)) = true := by
    decide
  obtain ⟨other, long, longUpper, kelvin, kelvinUpper, small⟩ :=
    of_decide_eq_true (List.all_eq_true.mp table letter known)
  simp only [sameLetter, beq_iff_eq, long, small, InAnyCase, if_false]
  by_cases stretched : c = '\u017f'
  · simp [stretched, long.symm, longUpper.symm, eq_comm]
  · rw [if_neg stretched, lowerChar]
    by_cases sign : c = '\u212a'
    · simp [sign, other.symm, kelvin.symm, kelvinUpper.symm]
    · simp [sign, stretched, toLower_eq_iff known]

end Text

namespace Fence

open Text (InAnyCase)

variable {fence other : Fence} {line text rest : Text} {c : Char}

/-- The tag of a block, in any case. -/
def IsTag (tag : Text) : Prop := List.Forall₂ InAnyCase tag language

theorem forall₂_inAnyCase_iff {word : Text} (known : ∀ letter ∈ word, letter ∈ language) :
    List.Forall₂ InAnyCase text word ↔
      text.length = word.length ∧ (List.zipWith Text.sameLetter text word).all id = true := by
  induction word generalizing text with
  | nil => cases text <;> simp
  | cons letter word ih =>
    obtain ⟨here, later⟩ := List.forall_mem_cons.mp known
    cases text with
    | nil => simp
    | cons c text =>
      rw [List.forall₂_cons, ih later, ← Text.sameLetter_iff here]
      simp [and_left_comm]

theorem dropLanguage?_eq_some_iff :
    dropLanguage? text = some rest ↔ ∃ tag, text = tag ++ rest ∧ IsTag tag := by
  have tag_iff (tag : Text) : IsTag tag ↔ tag.length = language.length ∧
      (List.zipWith Text.sameLetter tag language).all id = true :=
    forall₂_inAnyCase_iff fun _ member => member
  constructor
  · intro dropped
    rw [dropLanguage?] at dropped
    split at dropped
    · rename_i tagged
      rw [← Option.some.inj dropped]
      exact ⟨_, (List.take_append_drop _ _).symm, (tag_iff _).mpr tagged⟩
    · contradiction
  · rintro ⟨tag, rfl, tagged⟩
    have size : tag.length = language.length := tagged.length_eq
    rw [dropLanguage?, ← size, List.take_left, List.drop_left]
    exact if_pos (size ▸ (tag_iff tag).mp tagged)

/-! ### Opening and closing lines -/

def Spaces (text : Text) : Prop := ∀ c ∈ text, isSpace c = true

/-- What may stand at the end of a fence line: spaces and tabs, and a carriage return. -/
def Ending (text : Text) : Prop :=
  ∃ spaces feed, text = spaces ++ feed ∧ Spaces spaces ∧ (feed = [] ∨ feed = ['\r'])

theorem lineDone_iff : lineDone text = true ↔ Ending text := by
  constructor
  · intro done
    refine ⟨text.takeWhile isSpace, text.dropWhile isSpace,
      List.takeWhile_append_dropWhile.symm, fun c inside => List.mem_takeWhile_imp inside, ?_⟩
    unfold lineDone at done
    split at done
    · rename_i empty
      exact .inl empty
    · rename_i last
      exact .inr last
    · contradiction
  · rintro ⟨spaces, last, rfl, blank, rfl | rfl⟩
    · rw [lineDone, List.dropWhile_append_of_pos blank]
      rfl
    · rw [lineDone, List.dropWhile_append_of_pos blank]
      rfl

/-- A line that opens a block: its fence, then the tag, with spaces and tabs in between. -/
structure Opener (fence : Fence) (line : Text) : Prop where
  legal : fence.Legal
  spelled : ∃ gap tag ending, line = fence.indent ++ fence.ticks ++ (gap ++ (tag ++ ending)) ∧
    Spaces gap ∧ IsTag tag ∧ Ending ending

/-- A line that closes a block: its fence and nothing else. -/
def Closer (fence : Fence) (line : Text) : Prop :=
  ∃ ending, line = fence.indent ++ fence.ticks ++ ending ∧ Ending ending

theorem isClosing_iff : fence.isClosing line = true ↔ fence.Closer line := by
  constructor
  · intro closes
    unfold isClosing at closes
    split at closes
    · rename_i rest dropped
      exact ⟨rest, Text.append_of_dropStart? dropped, lineDone_iff.mp closes⟩
    · contradiction
  · rintro ⟨ending, rfl, ends⟩
    rw [isClosing, Text.dropStart?_append]
    exact lineDone_iff.mpr ends

theorem isClosing_eq_false_iff : fence.isClosing line = false ↔ ¬fence.Closer line := by
  rw [← isClosing_iff, Bool.not_eq_true]

theorem IsTag.exists_head {tag : Text} (tagged : IsTag tag) :
    ∃ c more, tag = c :: more ∧ isSpace c = false ∧ isTick c = false := by
  cases tagged with
  | cons first later =>
    rcases first with rfl | rfl | ⟨other, _⟩
    · exact ⟨_, _, rfl, rfl, rfl⟩
    · exact ⟨_, _, rfl, rfl, rfl⟩
    · contradiction

theorem opening?_iff : opening? line = some fence ↔ fence.Opener line := by
  constructor
  · intro opens
    have legal : fence.Legal := legal_of_opening? opens
    obtain ⟨ticks, found, later⟩ := Option.bind_eq_some_iff.mp opens
    obtain ⟨ending, dropped, same⟩ := Option.bind_eq_some_iff.mp later
    obtain ⟨tag, shown, tagged⟩ := dropLanguage?_eq_some_iff.mp dropped
    obtain ⟨behind, whole⟩ := prefix_of_ticks? found
    split at same
    · rename_i done
      obtain rfl := Option.some.inj same
      rw [← whole, List.drop_left] at shown
      refine ⟨legal, behind.takeWhile isSpace, tag, ending, ?_,
        fun c inside => List.mem_takeWhile_imp inside, tagged, lineDone_iff.mp done⟩
      calc
        line = line.takeWhile isSpace ++ line.dropWhile isSpace :=
          List.takeWhile_append_dropWhile.symm
        _ = line.takeWhile isSpace ++ (ticks ++ behind) := by rw [whole]
        _ = line.takeWhile isSpace ++ ticks ++ (behind.takeWhile isSpace ++ (tag ++ ending)) := by
          rw [← shown, List.takeWhile_append_dropWhile, List.append_assoc]
    · contradiction
  · rintro ⟨legal, gap, tag, ending, rfl, spaces, tagged, ends⟩
    obtain ⟨c, more, rfl, visible, plain⟩ := tagged.exists_head
    have broken : ∀ d ∈ (gap ++ (c :: more ++ ending)).head?, isTick d = false := by
      intro d first
      cases gap with
      | nil => exact Option.some.inj first ▸ plain
      | cons space gap =>
        exact Option.some.inj first ▸ isTick_of_isSpace (spaces space List.mem_cons_self)
    have dropped : dropLanguage? (c :: more ++ ending) = some ending :=
      dropLanguage?_eq_some_iff.mpr ⟨c :: more, rfl, tagged⟩
    have start : (c :: more ++ ending).dropWhile isSpace = c :: more ++ ending :=
      List.dropWhile_cons_of_neg (Bool.eq_false_iff.mp visible)
    rw [legal.opening?_append broken, List.dropWhile_append_of_pos spaces, start, dropped]
    exact if_pos (lineDone_iff.mpr ends)

/-- An opening line starts with its fence. -/
theorem prefix_of_opening? (opens : opening? line = some fence) :
    fence.indent ++ fence.ticks <+: line := by
  obtain ⟨_, _, _, rfl, _⟩ := (opening?_iff.mp opens).spelled
  exact List.prefix_append _ _

theorem Opener.eq (opens : fence.Opener line) (again : other.Opener line) : fence = other :=
  Option.some.inj ((opening?_iff.mpr opens).symm.trans (opening?_iff.mpr again))

/-! ### Fence lines are single lines -/

theorem Ending.single_line (ends : Ending text) : '\n' ∉ text := fun inside =>
  absurd (mem_of_lineDone (lineDone_iff.mpr ends) '\n' inside) (by decide)

theorem single_line_of_inAnyCase {word : Text} (same : List.Forall₂ InAnyCase text word)
    (known : ∀ letter ∈ word, letter ∈ language) : '\n' ∉ text := by
  have table : (language.all fun letter => letter != '\n' && letter.toUpper != '\n') = true := by
    decide
  induction same with
  | nil => exact List.not_mem_nil
  | @cons c letter _ _ first _ ih =>
    obtain ⟨here, later⟩ := List.forall_mem_cons.mp known
    obtain ⟨plain, plainUpper⟩ := Bool.and_eq_true_iff.mp (List.all_eq_true.mp table letter here)
    have other : '\n' ≠ c := by
      rintro rfl
      rcases first with small | capital | ⟨_, long⟩
      · exact bne_iff_ne.mp plain small.symm
      · exact bne_iff_ne.mp plainUpper capital.symm
      · exact absurd long (by decide)
    exact List.not_mem_cons_of_ne_of_not_mem other (ih later)

theorem Opener.single_line (opens : fence.Opener line) : '\n' ∉ line := by
  obtain ⟨legal, gap, tag, ending, rfl, spaces, tagged, ends⟩ := opens
  have gapless : '\n' ∉ gap := fun inside => absurd (spaces '\n' inside) (by decide)
  have tagless : '\n' ∉ tag := single_line_of_inAnyCase tagged fun _ member => member
  exact List.not_mem_append legal.single_line
    (List.not_mem_append gapless (List.not_mem_append tagless ends.single_line))

theorem Opener.nonempty (opens : fence.Opener line) : line ≠ [] := by
  obtain ⟨legal, gap, tag, ending, rfl, _⟩ := opens
  obtain ⟨mark, n, _, run⟩ := legal.ticks
  simp [run]

theorem Closer.single_line (closes : fence.Closer line) (legal : fence.Legal) : '\n' ∉ line := by
  obtain ⟨ending, rfl, ends⟩ := closes
  exact List.not_mem_append legal.single_line ends.single_line

end Fence

end Flowchart
