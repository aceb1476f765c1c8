import Flowchart.Proofs.Draft.Basic

/-!
Nodes and groups are declared alike. The brace that opens a group, with blanks in front of it,
stands behind a line that would declare a node, and nothing of that line is read otherwise.
-/
namespace Flowchart

namespace Text

/-- A start is found in front of an ending as it is without the ending, if all rests of the text are
taken alike. -/
theorem upTo?_append_of_agree {α : Type} {stop other : Text → Option α} {text ending : Text}
    (agree : ∀ rest, rest <:+ text → stop (rest ++ ending) = other rest)
    (found : (upTo? other text).isSome) : upTo? stop (text ++ ending) = upTo? other text := by
  induction text with
  | nil => contradiction
  | cons c rest ih =>
    rw [upTo?] at found
    rw [List.cons_append, upTo?, upTo?, agree rest (List.suffix_cons c rest)]
    split
    · rfl
    · rename_i single
      rw [if_neg single] at found
      cases accepted : other rest with
      | some body => rfl
      | none =>
        have later : (upTo? other rest).isSome := by simpa [accepted] using found
        rw [ih (fun part suffix => agree part (suffix.trans (List.suffix_cons c rest))) later]

end Text

/-- Every rest of a line shows something. -/
theorem Phrase.trimLeft_suffix {line : Phrase ['\n']} {rest : Text} (suffix : rest <:+ line.text)
    (nonempty : rest ≠ []) : ∃ c more, Text.trimLeft rest = c :: more := by
  obtain ⟨front, joined⟩ := suffix
  have trimmed : Text.Trimmed (front ++ rest) := joined.symm ▸ line.trimmed
  exact List.exists_cons_of_ne_nil (trimmed.trimLeft_end_ne_nil nonempty)

namespace Declaration

/-- Blanks on one line, and the brace that opens a group. -/
structure Opening (ending : Text) : Prop where
  single : '\n' ∉ ending
  start : Text.trimLeft ending = ['\x7b']

theorem opening_of_blanks {gap : Text} (blanks : Text.Blanks gap) (single : '\n' ∉ gap) :
    Opening (gap ++ ['\x7b']) where
  single := by simp [single]
  start := by
    rw [blanks.trimLeft_append]
    decide

namespace Opening

variable {ending : Text} (opening : Opening ending) {line : Phrase ['\n']} {rest : Text}

include opening

theorem ne_nil : ending ≠ [] := by
  rintro rfl
  exact absurd opening.start (by decide)

theorem unbracketed : ']' ∉ ending := by
  intro member
  rw [← Text.indent_append_trimLeft ending, opening.start] at member
  rcases List.mem_append.mp member with blank | last
  · exact absurd (Text.blanks_indent ending ']' blank) (by decide)
  · exact absurd last (by decide)

/-- Of the rests of a line, only the empty one is followed by nothing but the opening brace. -/
theorem opensGroup_append (suffix : rest <:+ line.text) :
    opensGroup (rest ++ ending) = Text.atEnd rest := by
  by_cases empty : rest = []
  · rw [empty, List.nil_append, opensGroup, opening.start]
    rfl
  · obtain ⟨c, more, start⟩ := line.trimLeft_suffix suffix empty
    have shown : Text.trimLeft rest ≠ [] := start ▸ List.cons_ne_nil c more
    have single : '\n' ∉ rest := fun member =>
      line.free '\n' (by decide) (suffix.subset member)
    have feed : '\n' ∉ more ++ ending := by
      have inside : more ⊆ rest := fun d member =>
        (List.dropWhile_sublist _).subset (start ▸ List.mem_cons_of_mem c member)
      exact List.not_mem_append (mt (@inside '\n') single) opening.single
    have goesOn : more ++ ending ≠ [] := List.append_ne_nil_of_right_ne_nil more opening.ne_nil
    rw [atEnd_eq_false empty single, opensGroup, Text.trimLeft_append_of_shown shown, start]
    split
    · rename_i after same
      obtain ⟨-, rfl⟩ := List.cons.inj same
      exact atEnd_eq_false goesOn feed
    · rfl

/-- Brackets in the rest of a line are found as if the line ended with them. -/
theorem bracketed?_append (suffix : rest <:+ line.text) :
    bracketed? (rest ++ ending) =
      (bracketed? rest).map fun found => (found.1, found.2 ++ ending) := by
  by_cases empty : rest = []
  · rw [empty, List.nil_append, bracketed?, opening.start]
    rfl
  · obtain ⟨c, more, start⟩ := line.trimLeft_suffix suffix empty
    have shown : Text.trimLeft rest ≠ [] := start ▸ List.cons_ne_nil c more
    rw [bracketed?, bracketed?, Text.trimLeft_append_of_shown shown, start]
    by_cases bracket : c = '['
    · subst bracket
      exact Text.cutAt?_append_of_not_mem opening.unbracketed more
    · simp [bracket]

theorem tail?_append (suffix : rest <:+ line.text) :
    tail? opensGroup (rest ++ ending) = tail? Text.atEnd rest := by
  rw [tail?, tail?, opening.bracketed?_append suffix, opening.opensGroup_append suffix]
  cases found : bracketed? rest with
  | none => rfl
  | some inside =>
    have behind : inside.2 <:+ line.text := by
      obtain ⟨parts, -⟩ := parts_of_bracketed? found
      have tail : inside.2 <:+ rest := by
        rw [parts]
        exact ⟨Text.indent rest ++ '[' :: (inside.1 ++ [']']), by simp⟩
      exact tail.trans suffix
    simp [opening.opensGroup_append behind]

theorem group?_append : group? (line.text ++ ending) = node? line.text := by
  have found : (Text.upTo? (tail? Text.atEnd) line.text).isSome :=
    Text.upTo?_isSome rfl line.nonempty (line.free '\n' (by decide))
  rw [group?, node?, read?, read?,
    Text.upTo?_append_of_agree (fun _ suffix => opening.tail?_append suffix) found]

end Opening

/-- A line with something in front of its last brace opens a group. -/
theorem group?_isSome {front : Text} (nonempty : front ≠ [])
    (trimmed : Text.Trimmed (front ++ ['\x7b'])) (single : '\n' ∉ front) :
    (group? (front ++ ['\x7b'])).isSome := by
  obtain ⟨gap, parts, blanks, shown⟩ := trimmed.exists_gap nonempty
  have name : '\n' ∉ Text.trim front := mt Text.mem_of_mem_trim single
  have spaces : '\n' ∉ gap := fun member => single (parts ▸ List.mem_append_right _ member)
  let line : Phrase ['\n'] := ⟨Text.trim front, shown, Text.trimmed_trim front,
    fun _ known => List.mem_singleton.mp known ▸ name⟩
  have alike : group? (line.text ++ (gap ++ ['\x7b'])) = node? line.text :=
    (opening_of_blanks blanks spaces).group?_append
  rw [parts, List.append_assoc, alike]
  exact node?_isSome line.nonempty name

theorem group?_eq_none_iff {line : Phrase ['\n']} (last : line.text.getLast? = some '\x7b') :
    group? line.text = none ↔ line.text = ['\x7b'] := by
  obtain ⟨front, joined⟩ := List.getLast?_eq_some_iff.mp last
  have single : '\n' ∉ line.text := line.free '\n' (by decide)
  constructor
  · intro refused
    by_contra other
    have nonempty : front ≠ [] := by
      rintro rfl
      exact other joined
    have read := group?_isSome nonempty (joined ▸ line.trimmed)
      fun member => single (joined ▸ List.mem_append_left _ member)
    rw [← joined, refused] at read
    contradiction
  · intro alone
    rw [alone]
    decide

/-- Blanks and a brace behind a line that declares a node make it declare a group with the same
label and the same properties. Of the lines that end with a brace only the brace itself is
refused. -/
theorem group?_alike (line : Phrase ['\n']) :
    (∀ gap, Text.Blanks gap → '\n' ∉ gap →
      ∃ declaration, node? line.text = some declaration ∧
        group? (line.text ++ gap ++ ['\x7b']) = some declaration) ∧
      (line.text.getLast? = some '\x7b' →
        (group? line.text = none ↔ line.text = ['\x7b'])) := by
  refine ⟨?_, group?_eq_none_iff⟩
  intro gap blanks single
  obtain ⟨declaration, read⟩ := Option.isSome_iff_exists.mp
    (node?_isSome line.nonempty (line.free '\n' (by decide)))
  refine ⟨declaration, read, ?_⟩
  rw [List.append_assoc, (opening_of_blanks blanks single).group?_append, read]

/-- Braces and brackets in the label, and a brace in a value. -/
def crowded : Phrase ['\n'] where
  text := "a \x7b [b] \x7d [icon: \x7b]".toList
  nonempty := by decide
  trimmed := (by decide : Text.trim _ = _)
  free := by decide

/-- The same with an opening brace. -/
def crowdedGroup : Phrase ['\n'] where
  text := crowded.text ++ "\t ".toList ++ ['\x7b']
  nonempty := by decide
  trimmed := (by decide : Text.trim _ = _)
  free := by decide

theorem group?_alike_crowded :
    (Text.Blanks "\t ".toList ∧ '\n' ∉ "\t ".toList ∧
      ∃ declaration, node? crowded.text = some declaration ∧
        group? (crowded.text ++ "\t ".toList ++ ['\x7b']) = some declaration) ∧
      crowdedGroup.text.getLast? = some '\x7b' ∧
      (group? crowdedGroup.text = none ↔ crowdedGroup.text = ['\x7b']) := by
  have blanks : Text.Blanks "\t ".toList := List.all_eq_true.mp (by decide)
  have single : '\n' ∉ "\t ".toList := by decide
  have last : crowdedGroup.text.getLast? = some '\x7b' := by decide
  exact ⟨⟨blanks, single, (group?_alike crowded).1 _ blanks single⟩, last,
    (group?_alike crowdedGroup).2 last⟩

end Declaration

end Flowchart
