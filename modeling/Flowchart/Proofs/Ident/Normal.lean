import Flowchart.Proofs.Ident.Words

/-!
The shape of identifiers. An identifier is nothing but words with one underscore between each two of
them, and no keyword; and everything of this shape is an identifier, the one of itself.
-/
namespace Flowchart.Ident

variable {name word : Ident} {all : List Ident} {label : Text} {c : Char}

/-- Lower-case letters and digits of ASCII. -/
def inWord (c : Char) : Bool := c.isLower || c.isDigit

/-- A run of such characters that is not empty. -/
structure Word (word : Ident) : Prop where
  nonempty : word ≠ []
  letters : ∀ c ∈ word, inWord c = true

/-- Words with one underscore between each two of them, none at all for the empty name; but no
keyword. -/
structure Normal (name : Ident) : Prop where
  worded : ∃ all : List Ident, (∀ word ∈ all, Word word) ∧ name = ['_'].intercalate all
  free : name ∉ reserved

/-! ### Identifiers are made of words -/

theorem word_of_mem_words (member : word ∈ words label) : Word word where
  nonempty := ne_nil_of_mem_words member
  letters c inside := by
    have letter : (inWord c || c == '_') = true := isLetter_of_mem_words member inside
    have other : (c == '_') = false :=
      beq_eq_false_iff_ne.mpr (ne_of_mem_of_not_mem inside (not_mem_of_mem_words member))
    rwa [other, Bool.or_false] at letter

theorem word_apart : Word apart where
  nonempty := by decide
  letters := List.all_eq_true.mp (by decide)

/-- What sets a keyword apart is a word of its own. -/
theorem escape_intercalate (nonempty : all ≠ []) (keyword : ['_'].intercalate all ∈ reserved) :
    escape (['_'].intercalate all) = ['_'].intercalate (apart :: all) := by
  obtain ⟨word, rest, rfl⟩ := List.exists_cons_of_ne_nil nonempty
  rw [escape, if_pos keyword, List.intercalate_cons_cons]
  rfl

theorem normal_ofLabel (label : Text) : Normal (ofLabel label) where
  free := ofLabel_not_reserved label
  worded := by
    have proper : ∀ word ∈ words label, Word word := fun _ member => word_of_mem_words member
    by_cases keyword : plain label ∈ reserved
    · have nonempty : words label ≠ [] := by
        intro nothing
        rw [plain_eq_nil.mpr nothing] at keyword
        exact absurd keyword (by decide)
      exact ⟨apart :: words label, List.forall_mem_cons.mpr ⟨word_apart, proper⟩,
        escape_intercalate nonempty keyword⟩
    · exact ⟨words label, proper, if_neg keyword⟩

/-! ### Words stay as they are -/

theorem isAlphanum_of_inWord (letter : inWord c = true) : c.isAlphanum = true := by
  change ((c.isUpper || c.isLower) || c.isDigit) = true
  rw [Bool.or_assoc, show (c.isLower || c.isDigit) = true from letter, Bool.or_true]

theorem toLower_of_inWord (letter : inWord c = true) : c.toLower = c :=
  forall_isAlphanum (P := fun c => inWord c = true → c.toLower = c) (by decide)
    (isAlphanum_of_inWord letter) letter

theorem Word.words_eq (proper : Word word) : words word = [word] := by
  have letters : ∀ c ∈ word, c.isAlphanum = true := fun c inside =>
    isAlphanum_of_inWord (proper.letters c inside)
  have same : word.map Char.toLower = word.map id :=
    List.map_congr_left fun c inside => toLower_of_inWord (proper.letters c inside)
  rw [words_run proper.nonempty letters, same, List.map_id]

/-- Words that are joined are read back. -/
theorem words_intercalate (proper : ∀ word ∈ all, Word word) :
    words (['_'].intercalate all) = all := by
  induction all with
  | nil => rfl
  | cons word rest ih =>
    obtain ⟨first, later⟩ := List.forall_mem_cons.mp proper
    cases rest with
    | nil => rw [List.intercalate_singleton, first.words_eq]
    | cons next more =>
      calc
        words (['_'].intercalate (word :: next :: more))
        _ = words (word ++ '_' :: ['_'].intercalate (next :: more)) := by
          rw [List.intercalate_cons_cons, List.append_assoc]
          rfl
        _ = words word ++ words (['_'].intercalate (next :: more)) :=
          words_append_cons word _ (by decide)
        _ = word :: next :: more := by
          rw [first.words_eq, ih later]
          rfl

theorem Normal.ofLabel_eq (normal : Normal name) : ofLabel name = name := by
  obtain ⟨all, proper, rfl⟩ := normal.worded
  rw [ofLabel, plain, words_intercalate proper, escape, if_neg normal.free]

theorem normal_iff : Normal name ↔ ofLabel name = name :=
  ⟨Normal.ofLabel_eq, fun same => same ▸ normal_ofLabel name⟩

instance (name : Ident) : Decidable (Normal name) := decidable_of_iff _ normal_iff.symm

/-- Every identifier is in normal form, and the normal forms are the identifiers: each is its own,
and nothing else is. So taking an identifier twice is taking it once. -/
theorem normal_forms (label : Text) :
    Normal (ofLabel label) ∧ (ofLabel label = label ↔ Normal label) ∧
      ((∃ other, ofLabel other = label) ↔ Normal label) ∧
      ofLabel (ofLabel label) = ofLabel label := by
  have normal := normal_ofLabel label
  refine ⟨normal, normal_iff.symm, ?_, normal.ofLabel_eq⟩
  constructor
  · intro made
    obtain ⟨other, rfl⟩ := made
    exact normal_ofLabel other
  · intro shaped
    exact ⟨label, shaped.ofLabel_eq⟩

example : Normal "node_end".toList ∧ ¬Normal "end".toList ∧ ¬Normal "a__b".toList ∧ Normal [] := by
  decide

end Flowchart.Ident
