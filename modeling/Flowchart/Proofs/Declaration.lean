import Flowchart.Declaration
import Flowchart.Proofs.Table
import Flowchart.Proofs.Text.Pieces
import Flowchart.Proofs.Text.Trim

/-!
What a declaration takes from its line. The label is made of characters of the line; the value of
a property is trimmed, and neither a comma nor a closing bracket can get into it.
-/
namespace Flowchart

namespace Text

theorem append_of_upTo? {α : Type} {stop : Text → Option α} {text start : Text} {found : α}
    (cut : upTo? stop text = some (start, found)) :
    ∃ rest, text = start ++ rest ∧ stop rest = some found ∧ start ≠ [] := by
  induction text generalizing start with
  | nil => simp [upTo?] at cut
  | cons c rest ih =>
    rw [upTo?] at cut
    split at cut
    · contradiction
    · split at cut
      · rename_i value accepted
        obtain ⟨rfl, rfl⟩ := Prod.mk.inj (Option.some.inj cut)
        exact ⟨rest, rfl, accepted, List.cons_ne_nil c []⟩
      · obtain ⟨⟨front, value⟩, inner, same⟩ := Option.map_eq_some_iff.mp cut
        obtain ⟨rfl, rfl⟩ := Prod.mk.inj same
        obtain ⟨behind, shown, accepted, _⟩ := ih inner
        exact ⟨behind, by rw [shown]; rfl, accepted, List.cons_ne_nil c front⟩

/-- On one line a start is found if the empty rest is accepted, at the latest at the end. -/
theorem upTo?_isSome {α : Type} {stop : Text → Option α} (last : (stop []).isSome) {text : Text}
    (nonempty : text ≠ []) (single : '\n' ∉ text) : (upTo? stop text).isSome := by
  induction text with
  | nil => contradiction
  | cons c rest ih =>
    obtain ⟨other, later⟩ := not_or.mp (mt List.mem_cons.mpr single)
    rw [upTo?, if_neg (Ne.symm other)]
    cases accepted : stop rest with
    | some found => rfl
    | none =>
      have more : rest ≠ [] := by
        rintro rfl
        simp [accepted] at last
      simpa using ih more later

/-- The start that is found, if nothing is accepted inside it. A start is not empty, so that what is
accepted in front of it does not matter. -/
theorem upTo?_append {α : Type} {stop : Text → Option α} {start rest : Text} {found : α}
    (nonempty : start ≠ []) (single : '\n' ∉ start) (accepted : stop rest = some found)
    (early : ∀ front back, front ++ back = start → front ≠ [] → back ≠ [] →
      stop (back ++ rest) = none) :
    upTo? stop (start ++ rest) = some (start, found) := by
  induction start with
  | nil => contradiction
  | cons c more ih =>
    obtain ⟨other, later⟩ := not_or.mp (mt List.mem_cons.mpr single)
    rw [List.cons_append, upTo?, if_neg (Ne.symm other)]
    by_cases last : more = []
    · simp [last, accepted]
    · have behind : upTo? stop (more ++ rest) = some (more, found) := by
        apply ih last later
        intro front back joined _ shown
        exact early (c :: front) back (by rw [← joined]; rfl) (List.cons_ne_nil c front) shown
      simp [early [c] more rfl (List.cons_ne_nil c []) last, behind]

theorem upTo?_eq_none {α : Type} {stop : Text → Option α} {text : Text}
    (refused : ∀ front back, front ++ back = text → front ≠ [] → stop back = none) :
    upTo? stop text = none := by
  induction text with
  | nil => rfl
  | cons c rest ih =>
    have here : stop rest = none := refused [c] rest rfl (List.cons_ne_nil c [])
    have behind : upTo? stop rest = none := by
      apply ih
      intro front back joined _
      exact refused (c :: front) back (by rw [← joined]; rfl) (List.cons_ne_nil c front)
    simp [upTo?, here, behind]

theorem dropFirstQuote_sublist (text : Text) : (dropFirstQuote text).Sublist text := by
  cases text with
  | nil => exact List.Sublist.refl []
  | cons c rest =>
    rw [dropFirstQuote]
    split
    · exact List.sublist_cons_self c rest
    · exact List.Sublist.refl (c :: rest)

theorem dropLastQuote_sublist (text : Text) : (dropLastQuote text).Sublist text := by
  have turned (back : Text) : (dropFirstQuote back).reverse.Sublist back.reverse :=
    List.reverse_sublist.mpr (dropFirstQuote_sublist back)
  rw [dropLastQuote]
  split
  · rename_i before shown
    have kept : text = before.reverse ++ ['\n'] := by
      rw [← List.reverse_reverse text, shown, List.reverse_cons]
    rw [kept]
    exact (turned before).append (List.Sublist.refl ['\n'])
  · simpa using turned text.reverse

theorem stripQuotes_sublist (text : Text) : (stripQuotes text).Sublist text :=
  (dropLastQuote_sublist _).trans (dropFirstQuote_sublist text)

theorem dropFirstQuote_of_free {text : Text} (free : ∀ c ∈ text, isQuote c = false) :
    dropFirstQuote text = text := by
  cases text with
  | nil => rfl
  | cons c rest => simp [dropFirstQuote, free c List.mem_cons_self]

theorem dropLastQuote_eq {text : Text} (single : '\n' ∉ text) :
    dropLastQuote text = (dropFirstQuote text.reverse).reverse := by
  rw [dropLastQuote]
  split
  · rename_i before shown
    have feed : '\n' ∈ text.reverse := shown ▸ List.mem_cons_self
    exact absurd (List.mem_reverse.mp feed) single
  · rfl

theorem stripQuotes_of_free {text : Text} (free : ∀ c ∈ text, isQuote c = false)
    (single : '\n' ∉ text) : stripQuotes text = text := by
  have turned : ∀ c ∈ text.reverse, isQuote c = false :=
    fun c member => free c (List.mem_reverse.mp member)
  rw [stripQuotes, dropFirstQuote_of_free free, dropLastQuote_eq single,
    dropFirstQuote_of_free turned, List.reverse_reverse]

theorem stripQuotes_of_quoted {quote : Char} (mark : isQuote quote = true) {text : Text}
    (single : '\n' ∉ text) : stripQuotes ([quote] ++ text ++ [quote]) = text := by
  have other : quote ≠ '\n' := by
    rintro rfl
    contradiction
  have behind : '\n' ∉ text ++ [quote] := by simp [single, Ne.symm other]
  simp [stripQuotes, dropFirstQuote, mark, dropLastQuote_eq behind]

end Text

namespace Property

/-- What the value of a property is: trimmed, and free of the marks that end a value, a list of
properties or a line. -/
structure Plain (value : Text) : Prop where
  trimmed : Text.Trimmed value
  comma : ',' ∉ value
  bracket : ']' ∉ value
  lineFeed : '\n' ∉ value

/-- A piece that is read comes apart at its first colon. -/
theorem parts_of_pair? {piece : Text} {entry : Text × Text} (pair : pair? piece = some entry) :
    ∃ before after, piece = before ++ ':' :: after ∧ ':' ∉ before ∧ Text.trim before ≠ [] ∧
      entry = (Text.trim before, Text.trim after) := by
  obtain ⟨⟨before, after⟩, cut, kept⟩ := Option.bind_eq_some_iff.mp pair
  obtain ⟨joined, colon⟩ := Text.append_of_cutAt? cut
  dsimp only at kept
  split at kept
  · contradiction
  · rename_i shown
    exact ⟨before, after, joined, colon, mt List.isEmpty_iff.mpr shown,
      (Option.some.inj kept).symm⟩

theorem value_of_pair? {piece key value : Text} (pair : pair? piece = some (key, value)) :
    Text.Trimmed value ∧ ∀ c ∈ value, c ∈ piece := by
  obtain ⟨before, after, joined, -, -, same⟩ := parts_of_pair? pair
  obtain ⟨rfl, rfl⟩ := Prod.mk.inj same
  refine ⟨Text.trimmed_trim after, ?_⟩
  intro c member
  rw [joined]
  exact List.mem_append_right before (List.mem_cons_of_mem ':' (Text.mem_of_mem_trim member))

theorem value_of_read {body key value : Text} (found : (read body).get? key = some value) :
    Text.Trimmed value ∧ ',' ∉ value ∧ ∀ c ∈ value, c ∈ body := by
  have entry := Table.mem_of_mem_ofList (Table.mem_of_get? found)
  obtain ⟨piece, member, pair⟩ := List.mem_filterMap.mp entry
  obtain ⟨trimmed, within⟩ := value_of_pair? pair
  refine ⟨trimmed, ?_, ?_⟩
  · intro comma
    exact Text.not_mem_of_mem_splitOn member (within ',' comma)
  · intro c inside
    exact Text.mem_of_mem_splitOn member (within c inside)

end Property

namespace Declaration

/-- What every declaration satisfies that stands on one line. -/
structure Sound (declaration : Declaration) : Prop where
  label : '\n' ∉ declaration.label
  properties : ∀ key value, declaration.properties.get? key = some value → Property.Plain value

/-- A line that holds something declares a node, however it looks. -/
theorem node?_isSome {line : Text} (nonempty : line ≠ []) (single : '\n' ∉ line) :
    (node? line).isSome := by
  have found : (Text.upTo? (tail? Text.atEnd) line).isSome :=
    Text.upTo?_isSome rfl nonempty single
  rw [node?, read?, Option.isSome_map]
  exact found

theorem atEnd_eq_false {rest : Text} (nonempty : rest ≠ []) (single : '\n' ∉ rest) :
    Text.atEnd rest = false := by
  have feed : rest ≠ ['\n'] := by
    rintro rfl
    exact single List.mem_cons_self
  simp [Text.atEnd, nonempty, feed]

theorem bracketed?_append {gap body : Text} (blanks : Text.Blanks gap) (free : ']' ∉ body)
    (after : Text) : bracketed? (gap ++ '[' :: (body ++ ']' :: after)) = some (body, after) := by
  have start : Text.trimLeft ('[' :: (body ++ ']' :: after)) = '[' :: (body ++ ']' :: after) :=
    Text.trimLeft_cons_of_visible _ (by decide)
  rw [bracketed?, blanks.trimLeft_append, start]
  exact Text.cutAt?_append free after

theorem parts_of_bracketed? {rest body after : Text}
    (found : bracketed? rest = some (body, after)) :
    rest = Text.indent rest ++ '[' :: (body ++ ']' :: after) ∧ ']' ∉ body := by
  rw [bracketed?] at found
  split at found
  · rename_i inside shown
    obtain ⟨joined, free⟩ := Text.append_of_cutAt? found
    refine ⟨?_, free⟩
    rw [← joined, ← shown, Text.indent_append_trimLeft]
  · contradiction

theorem body_of_bracketed? {rest body after : Text} (found : bracketed? rest = some (body, after)) :
    ']' ∉ body ∧ ∀ c ∈ body, c ∈ rest := by
  obtain ⟨joined, absent⟩ := parts_of_bracketed? found
  refine ⟨absent, ?_⟩
  intro c member
  rw [joined]
  exact List.mem_append_right _ (List.mem_cons_of_mem '[' (List.mem_append_left _ member))

theorem body_of_tail? {closing : Text → Bool} {rest body : Text}
    (found : tail? closing rest = some (some body)) : ']' ∉ body ∧ ∀ c ∈ body, c ∈ rest := by
  rw [tail?] at found
  split at found
  · rename_i inner after shown
    split at found
    · rw [← Option.some.inj (Option.some.inj found)]
      exact body_of_bracketed? shown
    · split at found <;> simp at found
  · split at found <;> simp at found

theorem read?_sound {closing : Text → Bool} {line : Text} {declaration : Declaration}
    (single : '\n' ∉ line) (found : read? closing line = some declaration) :
    declaration.Sound := by
  obtain ⟨⟨label, body⟩, cut, rfl⟩ := Option.map_eq_some_iff.mp found
  obtain ⟨rest, joined, tail, _⟩ := Text.append_of_upTo? cut
  constructor
  · intro member
    have trimmed := (Text.stripQuotes_sublist _).subset member
    have inside := Text.mem_of_mem_trim trimmed
    exact single (joined ▸ List.mem_append_left rest inside)
  · intro key value has
    obtain ⟨trimmed, comma, within⟩ := Property.value_of_read has
    cases body with
    | none =>
      -- Without brackets nothing is read.
      have empty : value = [] := List.eq_nil_iff_forall_not_mem.mpr fun c member =>
        List.not_mem_nil (within c member)
      rw [empty]
      exact ⟨rfl, List.not_mem_nil, List.not_mem_nil, List.not_mem_nil⟩
    | some body =>
      obtain ⟨bracket, inRest⟩ := body_of_tail? tail
      refine ⟨trimmed, comma, ?_, ?_⟩
      · intro member
        exact bracket (within ']' member)
      · intro member
        exact single (joined ▸ List.mem_append_right label (inRest '\n' (within '\n' member)))

end Declaration

end Flowchart
