import Flowchart.Proofs.Cut
import Flowchart.Proofs.Draft.Basic
import Mathlib.Data.Nat.Find

/-!
Where the line of a node comes apart. The properties begin at the first bracket behind the start of
the line that is closed by the last character and by none before it; all that stands in front of
them is the label, up to blanks and to one quote at either end. Without such a bracket the whole
line is the label.
-/
namespace Flowchart

namespace Text

/-- What is left of a text without the quote that it begins with and the quote that the rest ends
with, as far as there are such quotes. -/
def Unquoted (text label : Text) : Prop :=
  ∃ opening closing : Text, text = opening ++ (label ++ closing) ∧
    ((opening = [] ∧ ∀ c ∈ text.head?, isQuote c = false) ∨
      ∃ c, isQuote c = true ∧ opening = [c]) ∧
    ((closing = [] ∧ ∀ c ∈ label.getLast?, isQuote c = false) ∨
      ∃ c, isQuote c = true ∧ closing = [c])

theorem dropFirstQuote_cases (text : Text) :
    (dropFirstQuote text = text ∧ ∀ c ∈ text.head?, isQuote c = false) ∨
      ∃ c, isQuote c = true ∧ text = c :: dropFirstQuote text := by
  cases text with
  | nil => exact .inl ⟨rfl, by simp⟩
  | cons c rest =>
    by_cases quote : isQuote c = true
    · exact .inr ⟨c, quote, by simp [dropFirstQuote, quote]⟩
    · exact .inl ⟨by simp [dropFirstQuote, quote], by simpa using quote⟩

theorem dropLastQuote_cases {text : Text} (single : '\n' ∉ text) :
    (dropLastQuote text = text ∧ ∀ c ∈ text.getLast?, isQuote c = false) ∨
      ∃ c, isQuote c = true ∧ text = dropLastQuote text ++ [c] := by
  have last : (dropLastQuote text).reverse = dropFirstQuote text.reverse := by
    rw [dropLastQuote_eq single, List.reverse_reverse]
  rcases dropFirstQuote_cases text.reverse with ⟨same, bare⟩ | ⟨c, quote, joined⟩
  · rw [same, List.reverse_inj] at last
    rw [List.head?_reverse] at bare
    exact .inl ⟨last, bare⟩
  · refine .inr ⟨c, quote, ?_⟩
    rw [← List.reverse_inj, joined, ← last, List.reverse_append, List.reverse_singleton,
      List.singleton_append]

theorem unquoted_stripQuotes {text : Text} (single : '\n' ∉ text) :
    Unquoted text (stripQuotes text) := by
  have within : '\n' ∉ dropFirstQuote text :=
    fun member => single ((dropFirstQuote_sublist text).subset member)
  obtain ⟨closing, joined, ends⟩ : ∃ closing,
      dropFirstQuote text = stripQuotes text ++ closing ∧
        ((closing = [] ∧ ∀ c ∈ (stripQuotes text).getLast?, isQuote c = false) ∨
          ∃ c, isQuote c = true ∧ closing = [c]) := by
    rcases dropLastQuote_cases within with ⟨same, bare⟩ | ⟨c, quote, joined⟩
    · refine ⟨[], by rw [stripQuotes, same, List.append_nil], .inl ⟨rfl, ?_⟩⟩
      rwa [stripQuotes, same]
    · exact ⟨[c], joined, .inr ⟨c, quote, rfl⟩⟩
  rcases dropFirstQuote_cases text with ⟨same, bare⟩ | ⟨c, quote, start⟩
  · exact ⟨[], closing, by rw [← joined, same]; rfl, .inl ⟨rfl, bare⟩, ends⟩
  · refine ⟨[c], closing, ?_, .inr ⟨c, quote, rfl⟩, ends⟩
    rw [← joined]
    exact start

/-- A character that neither blanks nor quotes around a label can be taken for. -/
def isPlain (c : Char) : Bool := !isBlank c && !isQuote c

theorem filter_isPlain_trim (text : Text) :
    (trim text).filter isPlain = text.filter isPlain := by
  apply filter_trim
  intro c blank
  simp [isPlain, blank]

theorem Unquoted.filter_isPlain {text label : Text} (unquoted : Unquoted text label) :
    label.filter isPlain = text.filter isPlain := by
  obtain ⟨opening, closing, joined, starts, ends⟩ := unquoted
  have gone {quotes : Text} {bare : Prop}
      (one : (quotes = [] ∧ bare) ∨ ∃ c, isQuote c = true ∧ quotes = [c]) :
      quotes.filter isPlain = [] := by
    rcases one with ⟨rfl, -⟩ | ⟨c, quote, rfl⟩
    · rfl
    · simp [isPlain, quote]
  rw [joined, List.filter_append, List.filter_append, gone starts, gone ends, List.append_nil,
    List.nil_append]

theorem stripQuotes_trim {kept : Text} (single : '\n' ∉ kept) :
    Unquoted (trim kept) (stripQuotes (trim kept)) ∧
      (stripQuotes (trim kept)).filter isPlain = kept.filter isPlain := by
  have unquoted := unquoted_stripQuotes fun member => single (mem_of_mem_trim member)
  exact ⟨unquoted, unquoted.filter_isPlain.trans (filter_isPlain_trim kept)⟩

end Text

namespace Declaration

/-- A bracket that is not the first character and that the last one closes, and none before it. -/
structure OpensAt (text : Text) (place : Nat) : Prop where
  inside : 1 ≤ place
  opening : text[place]? = some '['
  closing : text.getLast? = some ']'
  unclosed : ∀ i, place < i → i + 1 < text.length → text[i]? ≠ some ']'

/-- The line around the bracket. -/
theorem OpensAt.parts {text : Text} {place : Nat} (opens : OpensAt text place) :
    ∃ front body, text = front ++ '[' :: (body ++ [']']) ∧ front.length = place ∧ front ≠ [] ∧
      ']' ∉ body := by
  obtain ⟨front, rest, parts, length⟩ := Cut.getElem?_eq_some_iff_append.mp opens.opening
  have last := opens.closing
  rcases List.eq_nil_or_concat' rest with rfl | ⟨body, c, rfl⟩
  · rw [parts, List.getLast?_concat] at last
    exact absurd (Option.some.inj last) (by decide)
  · obtain rfl : c = ']' := by
      rw [parts, ← List.cons_append, ← List.append_assoc, List.getLast?_concat] at last
      exact Option.some.inj last
    refine ⟨front, body, parts, length, ?_, ?_⟩
    · exact List.ne_nil_of_length_pos (opens.inside.trans_eq length.symm)
    · intro member
      obtain ⟨before, behind, rfl⟩ := List.append_of_mem member
      have closed : text[(front ++ '[' :: before).length]? = some ']' :=
        Cut.getElem?_eq_some_iff_append.mpr ⟨_, behind ++ [']'], by simp [parts], rfl⟩
      refine opens.unclosed _ ?_ ?_ closed
      · simp [← length]
      · rw [parts]
        simp only [List.length_append, List.length_cons, List.length_nil]
        omega

theorem opensAt_of_parts {front body : Text} (nonempty : front ≠ []) (free : ']' ∉ body) :
    OpensAt (front ++ '[' :: (body ++ [']'])) front.length where
  inside := List.length_pos_iff.mpr nonempty
  opening := by simp
  closing := by rw [← List.cons_append, ← List.append_assoc, List.getLast?_concat]
  unclosed := by
    intro i behind before found
    obtain ⟨k, rfl⟩ : ∃ k, i = front.length + (k + 1) := ⟨i - front.length - 1, by omega⟩
    have inside : k < body.length := by
      simp only [List.length_append, List.length_cons, List.length_nil] at before
      omega
    rw [List.getElem?_append_right (by omega), Nat.add_sub_cancel_left, List.getElem?_cons_succ,
      List.getElem?_append_left inside] at found
    exact free (List.mem_of_getElem? found)

/-! ### The end of a line -/

/-- Inside of a line only brackets are a tail, and only those that the last character closes. -/
theorem parts_of_tail? {rest : Text} {body : Option Text} (nonempty : rest ≠ [])
    (single : '\n' ∉ rest) (found : tail? Text.atEnd rest = some body) :
    ∃ inner, rest = Text.indent rest ++ '[' :: (inner ++ [']']) ∧ ']' ∉ inner := by
  have inside : Text.atEnd rest = false := atEnd_eq_false nonempty single
  rw [tail?, inside] at found
  split at found
  · rename_i inner after shown
    obtain ⟨joined, free⟩ := parts_of_bracketed? shown
    cases after with
    | nil => exact ⟨inner, joined, free⟩
    | cons c after =>
      have goesOn : Text.atEnd (c :: after) = false := by
        apply atEnd_eq_false (List.cons_ne_nil c after)
        intro member
        rw [joined] at single
        simp [member] at single
      simp [goesOn] at found
  · simp at found

/-- The rest of a line is no tail if the bracket behind its blanks does not open the properties. -/
theorem tail?_eq_none {text front back : Text} (joined : front ++ back = text)
    (nonempty : front ≠ []) (shown : back ≠ []) (single : '\n' ∉ text)
    (closed : ¬OpensAt text (front ++ Text.indent back).length) :
    tail? Text.atEnd back = none := by
  cases found : tail? Text.atEnd back with
  | none => rfl
  | some body =>
    have within : '\n' ∉ back := fun member => single (joined ▸ List.mem_append_right front member)
    obtain ⟨inner, parts, free⟩ := parts_of_tail? shown within found
    have whole : text = (front ++ Text.indent back) ++ '[' :: (inner ++ [']']) := by
      rw [List.append_assoc, ← parts, joined]
    refine absurd ?_ closed
    have opens := opensAt_of_parts (List.append_ne_nil_of_left_ne_nil nonempty (Text.indent back))
      free
    rwa [← whole] at opens

/-! ### The label and the properties -/

theorem node?_of_closed {line : Phrase ['\n']} (closed : ∀ place, ¬OpensAt line.text place) :
    node? line.text = some ⟨Text.stripQuotes (Text.trim line.text), []⟩ := by
  have single : '\n' ∉ line.text := line.free '\n' (by decide)
  have last : tail? Text.atEnd [] = some none := rfl
  have whole : Text.upTo? (tail? Text.atEnd) (line.text ++ []) = some (line.text, none) := by
    apply Text.upTo?_append line.nonempty single last
    intro front back joined nonempty shown
    rw [List.append_nil]
    exact tail?_eq_none joined nonempty shown single (closed _)
  rw [List.append_nil] at whole
  simp only [node?, read?, whole, Option.map_some]
  rfl

/-- The properties begin at the first bracket that may open them. -/
theorem upTo?_of_first {line : Phrase ['\n']} {front body : Text}
    (parts : line.text = front ++ '[' :: (body ++ [']'])) (nonempty : front ≠ [])
    (free : ']' ∉ body) (first : ∀ earlier < front.length, ¬OpensAt line.text earlier) :
    Text.upTo? (tail? Text.atEnd) line.text = some (Text.trim front, some body) := by
  have single : '\n' ∉ line.text := line.free '\n' (by decide)
  have trimmed : Text.Trimmed (front ++ '[' :: (body ++ [']'])) := parts ▸ line.trimmed
  obtain ⟨gap, joined, blanks, shown⟩ := trimmed.exists_gap nonempty
  have accepted : tail? Text.atEnd (gap ++ '[' :: (body ++ [']'])) = some (some body) := by
    rw [tail?, bracketed?_append blanks free]
    rfl
  have whole : line.text = Text.trim front ++ (gap ++ '[' :: (body ++ [']'])) := by
    rw [← List.append_assoc, ← joined, parts]
  rw [whole]
  apply Text.upTo?_append shown _ accepted
  · -- A tail inside of the name would begin with a bracket in front of the first one.
    intro start back within begun visible
    apply tail?_eq_none (by rw [whole, ← within, List.append_assoc]) begun
      (List.append_ne_nil_of_left_ne_nil visible _) single
    apply first
    have ends : Text.Trimmed (start ++ back) := within.symm ▸ Text.trimmed_trim front
    have indent := Text.length_indent_append_lt (ends.trimLeft_end_ne_nil visible)
      (gap ++ '[' :: (body ++ [']']))
    have total := congrArg List.length joined
    rw [← within, List.length_append, List.length_append] at total
    rw [List.length_append]
    omega
  · exact fun member => single (whole ▸ List.mem_append_left _ member)

theorem node?_of_opensAt {line : Phrase ['\n']} {place : Nat} (opens : OpensAt line.text place)
    (first : ∀ earlier < place, ¬OpensAt line.text earlier) :
    node? line.text = some ⟨Text.stripQuotes (Text.trim (line.text.take place)),
      Property.readBracketed (line.text.drop place)⟩ := by
  obtain ⟨front, body, parts, rfl, nonempty, free⟩ := opens.parts
  have found := upTo?_of_first parts nonempty free first
  have label : Text.trim (Text.trim front) = Text.trim front := Text.trimmed_trim front
  simp only [node?, read?, found, Option.map_some, label]
  rw [parts, List.take_left, List.drop_left]
  simp [Property.readBracketed]

/-- A line that shows something declares a node. The label is what stands in front of the first
bracket that the end of the line closes, or all of the line, without blanks and one quote at either
end, and nothing else of it is lost. -/
theorem node?_split (line : Phrase ['\n']) :
    ∃ kept label properties, node? line.text = some ⟨label, properties⟩ ∧
      Text.Unquoted (Text.trim kept) label ∧
      label.filter Text.isPlain = kept.filter Text.isPlain ∧
      ((∃ place, OpensAt line.text place ∧ (∀ earlier < place, ¬OpensAt line.text earlier) ∧
          kept = line.text.take place ∧
          properties = Property.readBracketed (line.text.drop place)) ∨
        ((∀ place, ¬OpensAt line.text place) ∧ kept = line.text ∧ properties = [])) := by
  have within (kept : Text) (part : kept ⊆ line.text) : '\n' ∉ kept :=
    fun member => line.free '\n' (by decide) (part member)
  by_cases bracketed : ∃ place, OpensAt line.text place
  · obtain ⟨place, opens, first⟩ : ∃ place, OpensAt line.text place ∧
        ∀ earlier < place, ¬OpensAt line.text earlier := by
      classical
      exact ⟨Nat.find bracketed, Nat.find_spec bracketed, fun _ => Nat.find_min bracketed⟩
    obtain ⟨unquoted, kept⟩ := Text.stripQuotes_trim
      (within (line.text.take place) (List.take_subset place line.text))
    exact ⟨_, _, _, node?_of_opensAt opens first, unquoted, kept,
      .inl ⟨place, opens, first, rfl, rfl⟩⟩
  · have closed : ∀ place, ¬OpensAt line.text place := not_exists.mp bracketed
    obtain ⟨unquoted, kept⟩ := Text.stripQuotes_trim (within line.text (List.Subset.refl _))
    exact ⟨_, _, _, node?_of_closed closed, unquoted, kept, .inr ⟨closed, rfl, rfl⟩⟩

/-- A bracket at the start is part of the label, and so are brackets that are closed too early. -/
example : node? "[a [x] b\t[ icon: c[d ]".toList =
    some ⟨"[a [x] b".toList, [("icon".toList, "c[d".toList)]⟩ := by
  decide

end Declaration

end Flowchart
