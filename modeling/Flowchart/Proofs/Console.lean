import Flowchart.Console.Tagged

/-!
Which lines a console shows. All that can be wrong with a line is a tag that closes a style which
is not open, so a line that begins with such a tag is refused; and one whose texts are escaped is
shown, if no tag can come about between them.
-/
namespace Flowchart

namespace Console

/-- The line is not refused. -/
def Shows (console : Console) (markup : Text) : Prop := console.refusal? (.line markup) = none

instance (console : Console) (markup : Text) : Decidable (console.Shows markup) :=
  inferInstanceAs (Decidable (_ = none))

/-- A line is refused if its first tag closes a style. No bracket is in front of the tag, and no
backslash, which would make it text. -/
def Strict (console : Console) : Prop :=
  ∀ before style after, '[' ∉ before → '\\' ∉ before → '[' ∉ style → ']' ∉ style →
    ¬console.Shows (before ++ '[' :: '/' :: (style ++ ']' :: after))

/-- A line is shown if a mark is followed by text that has no slash, and so no tag that closes
anything, and then by escaped text. -/
structure Lenient (console : Console) : Prop where
  shows : ∀ mark ∈ [Markup.tick, Markup.cross], ∀ free text, '/' ∉ free →
    console.Shows ("  ".toList ++ (mark ++ (free ++ ' ' :: console.escape text)))
  escape : ∀ text, '/' ∉ text → '/' ∉ console.escape text

end Console

namespace Markup

variable {styles : List Text} {text : Text}

theorem eq_of_opensTag {c : Char} (opens : opensTag (c :: text) = true) : c = '[' := by
  rw [opensTag.eq_def] at opens
  split at opens
  · rename_i same
    exact (List.cons.inj same).1
  · contradiction

/-! ### Tags that close nothing -/

theorem strayFrom_of_plain {before : Text} (brackets : '[' ∉ before) (slashes : '\\' ∉ before)
    (place : Nat) (rest : Text) : strayFrom place 0 false styles (before ++ rest) =
      strayFrom (place + before.length) 0 false styles rest := by
  induction before generalizing place with
  | nil => rfl
  | cons c before ih =>
    obtain ⟨bracket, brackets⟩ := not_or.mp (mt List.mem_cons.mpr brackets)
    obtain ⟨slash, slashes⟩ := not_or.mp (mt List.mem_cons.mpr slashes)
    have plain : ¬opensTag (c :: (before ++ rest)) = true :=
      fun opens => bracket (eq_of_opensTag opens).symm
    rw [List.cons_append, strayFrom, if_neg Bool.false_ne_true, if_neg (Ne.symm slash),
      if_neg (plain ·.1), ih brackets slashes, List.length_cons]
    congr 1
    omega

theorem find?_append_of_plain {style : Text} (opens : '[' ∉ style) (closes : ']' ∉ style)
    (after : Text) :
    (style ++ ']' :: after).find? (fun c => c == '[' || c == ']') = some ']' := by
  have none : style.find? (fun c => c == '[' || c == ']') = none := by
    refine List.find?_eq_none.mpr fun c member bracket => ?_
    rcases Bool.or_eq_true_iff.mp bracket with same | same
    · exact opens (eq_of_beq same ▸ member)
    · exact closes (eq_of_beq same ▸ member)
  rw [List.find?_append, none]
  rfl

/-- Where no style is open, none has a name and none is the last. -/
theorem tagged_of_closing (place : Nat) (style : Text) :
    ∃ message, tagged place [] ('/' :: style) = .error message := by
  simp only [tagged]
  split <;> exact ⟨_, rfl⟩

theorem stray?_of_closing {before style : Text} (brackets : '[' ∉ before) (slashes : '\\' ∉ before)
    (opens : '[' ∉ style) (closes : ']' ∉ style) (after : Text) :
    ∃ message, stray? (before ++ '[' :: '/' :: (style ++ ']' :: after)) = some message := by
  have tag : opensTag ('[' :: '/' :: (style ++ ']' :: after)) = true := by
    rw [opensTag, find?_append_of_plain opens closes]
    rfl
  rw [stray?, strayFrom_of_plain brackets slashes, strayFrom, if_neg Bool.false_ne_true,
    if_neg (by decide), if_pos ⟨tag, rfl⟩, List.takeWhile_cons_of_pos rfl]
  obtain ⟨message, wrong⟩ := tagged_of_closing (0 + before.length)
    ((style ++ ']' :: after).takeWhile (· != ']'))
  rw [wrong]
  exact ⟨message, rfl⟩

/-! ### Escaped text -/

theorem escape_eq (text : Text) :
    ∃ count, escape text = escapeTags 0 text ++ List.replicate count '\\' := by
  rw [escape, closeBackslash]
  split
  · exact ⟨0, (List.append_nil _).symm⟩
  · exact ⟨1, rfl⟩
  · exact ⟨0, (List.append_nil _).symm⟩

theorem mem_escapeTags {c : Char} {slashes : Nat} (member : c ∈ escapeTags slashes text) :
    c ∈ text ∨ c = '\\' := by
  induction text generalizing slashes with
  | nil => exact .inl member
  | cons first rest ih =>
    have behind (before : Nat) (within : c ∈ first :: escapeTags before rest) :
        c ∈ first :: rest ∨ c = '\\' := by
      rcases List.mem_cons.mp within with rfl | later
      · exact .inl List.mem_cons_self
      · exact (ih later).imp_left (List.mem_cons_of_mem first)
    rw [escapeTags] at member
    split at member
    · exact behind _ member
    split at member
    · rcases List.mem_append.mp member with slash | within
      · exact .inr (List.eq_of_mem_replicate slash)
      · exact behind _ within
    · exact behind _ member

theorem not_mem_escape (free : '/' ∉ text) : '/' ∉ escape text := by
  obtain ⟨count, same⟩ := escape_eq text
  intro member
  rw [same] at member
  rcases List.mem_append.mp member with inside | last
  · exact (mem_escapeTags inside).elim free (by decide)
  · exact absurd (List.eq_of_mem_replicate last) (by decide)

theorem find?_backslashes (count : Nat) (rest : Text) :
    (List.replicate count '\\' ++ rest).find? (fun c => c == '[' || c == ']') =
      rest.find? fun c => c == '[' || c == ']' := by
  induction count with
  | zero => rfl
  | succ count ih => exact ih

/-- Escaping leaves the brackets in their order. -/
theorem find?_escapeTags (before count : Nat) (text : Text) :
    (escapeTags before text ++ List.replicate count '\\').find? (fun c => c == '[' || c == ']') =
      text.find? fun c => c == '[' || c == ']' := by
  induction text generalizing before with
  | nil => exact (congrArg _ (List.append_nil _).symm).trans (find?_backslashes count [])
  | cons c rest ih =>
    rw [escapeTags]
    split
    · rename_i slash
      rw [slash]
      exact ih (before + 1)
    split
    · rw [List.append_assoc, find?_backslashes, List.cons_append, List.find?_cons, List.find?_cons,
        ih 0]
    · rw [List.cons_append, List.find?_cons, List.find?_cons, ih 0]

theorem opensTag_cons_cons (c first : Char) (rest : Text) : opensTag (c :: first :: rest) =
    (c == '[' && (startsTag first &&
      rest.find? (fun c => c == '[' || c == ']') == some ']')) := by
  by_cases bracket : c = '['
  · subst bracket
    rfl
  · rw [beq_eq_false_iff_ne.mpr bracket, Bool.false_and, Bool.eq_false_iff]
    exact fun opens => bracket (eq_of_opensTag opens)

/-- Escaping makes no tags. -/
theorem opensTag_escapeTags (c : Char) (count : Nat) (text : Text) :
    opensTag (c :: (escapeTags 0 text ++ List.replicate count '\\')) = opensTag (c :: text) := by
  have slash (rest : Text) : opensTag (c :: '\\' :: rest) = false := by
    rw [opensTag_cons_cons]
    exact Bool.and_false _
  cases text with
  | nil =>
    cases count with
    | zero => rfl
    | succ count => exact (slash _).trans (by simp [opensTag])
  | cons first rest =>
    rw [escapeTags]
    split
    · rename_i here
      rw [here, List.cons_append, slash, slash]
    split
    · rename_i opens
      rw [eq_of_opensTag opens, opensTag_cons_cons c '[']
      exact (slash _).trans (Bool.and_false _).symm
    · rw [List.cons_append, opensTag_cons_cons, opensTag_cons_cons, find?_escapeTags]

variable (styles) in
/-- Backslashes are counted where nothing is passed over. -/
theorem strayFrom_backslashes (count place slashes : Nat) (hidden : Bool) (rest : Text) :
    ∃ there after, (hidden = false → after = slashes + count) ∧
      strayFrom place slashes hidden styles (List.replicate count '\\' ++ rest) =
        strayFrom there after hidden styles rest := by
  induction count generalizing place slashes with
  | zero => exact ⟨place, slashes, fun _ => rfl, rfl⟩
  | succ count ih =>
    cases hidden with
    | true =>
      obtain ⟨there, after, _, same⟩ := ih (place + 1) 0
      exact ⟨there, after, nofun, same⟩
    | false =>
      obtain ⟨there, after, counted, same⟩ := ih (place + 1) (slashes + 1)
      refine ⟨there, after, fun visible => ?_, same⟩
      rw [counted visible]
      omega

/-- No tag of escaped text closes anything, whatever is open before it or passed over. -/
theorem strayFrom_escapeTags (count : Nat) (text : Text) (place before slashes : Nat)
    (hidden : Bool) (counted : hidden = false → slashes = before) :
    strayFrom place slashes hidden styles
      (escapeTags before text ++ List.replicate count '\\') = none := by
  induction text generalizing place before slashes hidden with
  | nil =>
    obtain ⟨there, after, _, same⟩ :=
      strayFrom_backslashes styles count place slashes hidden []
    rwa [List.append_nil] at same
  | cons c rest ih =>
    rw [escapeTags]
    split
    · rename_i slash
      rw [slash]
      cases hidden with
      | true => exact ih (place + 1) _ 0 true nofun
      | false =>
        rw [counted rfl]
        exact ih (place + 1) _ (before + 1) false fun _ => rfl
    rename_i other
    split
    · rename_i opens
      rw [List.append_assoc]
      obtain ⟨there, after, odd, same⟩ := strayFrom_backslashes styles (before + 1) place slashes
        hidden (c :: escapeTags 0 rest ++ List.replicate count '\\')
      rw [same, List.cons_append, strayFrom]
      cases hidden with
      | true => exact ih _ _ 0 _ fun _ => rfl
      | false =>
        have odd : after % 2 = 1 := by
          rw [odd rfl, counted rfl]
          omega
        rw [if_neg Bool.false_ne_true, if_neg other, if_neg (by omega)]
        exact ih _ _ 0 _ fun _ => rfl
    · rename_i plain
      rw [List.cons_append, strayFrom]
      cases hidden with
      | true => exact ih _ _ 0 _ fun _ => rfl
      | false =>
        rw [if_neg Bool.false_ne_true, if_neg other, opensTag_escapeTags, if_neg (plain ·.1)]
        exact ih _ _ 0 _ fun _ => rfl

theorem tagged_of_open {tag : Text} (opens : tag.head? ≠ some '/') (place : Nat) :
    tagged place styles tag = .ok (styleOf tag :: styles) := by
  rw [tagged.eq_def]
  split
  · contradiction
  · rfl

/-- Text without a slash closes nothing, unless a slash follows it. -/
theorem strayFrom_of_free {free : Text} (slash : '/' ∉ free) (place slashes : Nat) (hidden : Bool)
    (c : Char) (other : c ≠ '/') (rest : Text) (styles : List Text) :
    ∃ there after passing open_, strayFrom place slashes hidden styles (free ++ c :: rest) =
      strayFrom there after passing open_ (c :: rest) := by
  induction free generalizing place slashes hidden styles with
  | nil => exact ⟨_, _, _, _, rfl⟩
  | cons first free ih =>
    obtain ⟨_, slash⟩ := not_or.mp (mt List.mem_cons.mpr slash)
    rw [List.cons_append, strayFrom]
    split
    · exact ih slash ..
    split
    · exact ih slash ..
    split
    · have first : ((free ++ c :: rest).takeWhile (· != ']')).head? ≠ some '/' := by
        rw [List.head?_takeWhile]
        intro found
        have head := (Option.filter_eq_some_iff.mp found).1
        cases free with
        | nil => exact other (Option.some.inj head)
        | cons d free => exact slash (Option.some.inj head ▸ List.mem_cons_self)
      rw [tagged_of_open first]
      exact ih slash ..
    · exact ih slash ..

theorem stray?_of_escaped {mark free : Text} (known : mark ∈ [tick, cross]) (slash : '/' ∉ free)
    (text : Text) : stray? ("  ".toList ++ (mark ++ (free ++ ' ' :: escape text))) = none := by
  have closed : ∃ place, stray? ("  ".toList ++ (mark ++ (free ++ ' ' :: escape text))) =
      strayFrom place 0 false [] (free ++ ' ' :: escape text) := by
    simp only [List.mem_cons, List.not_mem_nil, or_false] at known
    rcases known with rfl | rfl
    · exact ⟨_, rfl⟩
    · exact ⟨_, rfl⟩
  obtain ⟨place, closed⟩ := closed
  obtain ⟨there, after, passing, open_, same⟩ :=
    strayFrom_of_free slash place 0 false ' ' (by decide) (escape text) []
  obtain ⟨count, written⟩ := escape_eq text
  rw [closed, same, written]
  cases passing with
  | true => exact strayFrom_escapeTags count text _ 0 0 true nofun
  | false => exact strayFrom_escapeTags count text _ 0 0 false fun _ => rfl

end Markup

namespace Console

theorem strict_tagged : tagged.Strict := by
  intro before style after brackets slashes opens closes shown
  obtain ⟨message, stray⟩ := Markup.stray?_of_closing brackets slashes opens closes after
  simp [Shows, tagged, Block.pieces, stray] at shown

theorem lenient_tagged : tagged.Lenient where
  shows mark known free text slash := by
    have escaped := Markup.stray?_of_escaped known slash text
    simp only [Shows, tagged, Block.pieces, List.findSome?_singleton, escaped, Option.map_none]
  escape text free := Markup.not_mem_escape free

end Console

end Flowchart
