import Flowchart.Ident
import Flowchart.Proofs.Text.Pieces

/-!
The alphabet of identifiers: lower-case ASCII letters, digits and the underscore. No identifier is a
keyword of the markup, whatever the label, and only a label without letters and digits of ASCII has
an empty one.
-/
namespace Flowchart.Ident

def isLetter (c : Char) : Bool := c.isLower || c.isDigit || c == '_'

theorem toNat_lt_of_isAlphanum {c : Char} (word : c.isAlphanum = true) : c.toNat < 128 := by
  have kinds : ((c.isUpper || c.isLower) || c.isDigit) = true := word
  rw [Bool.or_eq_true, Bool.or_eq_true] at kinds
  rcases kinds with (upper | lower) | digit
  · have bounds : 65 ≤ c.toNat ∧ c.toNat ≤ 90 := of_decide_eq_true upper
    omega
  · have below : c.toNat ≤ 122 := of_decide_eq_true (Bool.and_eq_true_iff.mp lower).2
    omega
  · have below : c.toNat ≤ 57 := of_decide_eq_true (Bool.and_eq_true_iff.mp digit).2
    omega

/-- What a table of ASCII shows holds of every letter and digit. -/
theorem forall_isAlphanum {P : Char → Prop} (table : ∀ n < 128, P (Char.ofNat n)) {c : Char}
    (word : c.isAlphanum = true) : P c := by
  have entry := table c.toNat (toNat_lt_of_isAlphanum word)
  rwa [Char.ofNat_toNat] at entry

theorem isLetter_toLower {c : Char} (word : c.isAlphanum = true) : isLetter c.toLower = true :=
  forall_isAlphanum (P := fun c => c.isAlphanum = true → isLetter c.toLower = true) (by decide)
    word word

theorem isLetter_of_mem_words {c : Char} {label word : Text} (member : word ∈ words label)
    (inside : c ∈ word) : isLetter c = true := by
  obtain ⟨run, kept, rfl⟩ := List.mem_map.mp member
  obtain ⟨raw, within, rfl⟩ := List.mem_map.mp inside
  have piece := (List.mem_filter.mp kept).1
  have plain := (Text.mem_and_not_mark_of_mem_splitOnP piece raw within).2
  exact isLetter_toLower (by simpa using plain)

theorem isLetter_of_mem_plain {c : Char} {label : Text} (member : c ∈ plain label) :
    isLetter c = true := by
  rcases Text.mem_of_mem_intercalate member with rfl | ⟨word, known, inside⟩
  · rfl
  · exact isLetter_of_mem_words known inside

theorem isLetter_of_mem_ofLabel {c : Char} {label : Text} (member : c ∈ ofLabel label) :
    isLetter c = true := by
  rw [ofLabel, escape] at member
  split at member
  · rcases List.mem_append.mp member with marked | inside
    · have mark : "node_".toList.all isLetter = true := by decide
      exact List.all_eq_true.mp mark c marked
    · exact isLetter_of_mem_plain inside
  · exact isLetter_of_mem_plain member

theorem escape_not_reserved (name : Ident) : escape name ∉ reserved := by
  have marked : ∀ word ∈ reserved, "node_".toList ++ word ∉ reserved := by decide
  by_cases keyword : name ∈ reserved
  · rw [escape, if_pos keyword]
    exact marked name keyword
  · rw [escape, if_neg keyword]
    exact keyword

theorem ofLabel_not_reserved (label : Text) : ofLabel label ∉ reserved :=
  escape_not_reserved (plain label)

/-- Every character is one of the alphabet. -/
def Spelled (id : Ident) : Prop := ∀ c ∈ id, isLetter c = true

-- By way of the list: there are too many characters to go through.
instance (id : Ident) : Decidable (Spelled id) := List.decidableBAll _ id

theorem ofLabel_spelled (label : Text) : Spelled (ofLabel label) :=
  fun _ member => isLetter_of_mem_ofLabel member

theorem words_eq_nil {label : Text} : words label = [] ↔ ∀ c ∈ label, c.isAlphanum = false := by
  rw [words, List.map_eq_nil_iff, List.filter_eq_nil_iff]
  constructor
  · intro empty c member
    cases word : c.isAlphanum with
    | false => rfl
    | true =>
      obtain ⟨piece, known, inside⟩ : ∃ piece ∈ label.splitOnP (!·.isAlphanum), c ∈ piece :=
        Text.exists_mem_splitOnP member (by simp [word])
      have nothing : piece = [] := by simpa using empty piece known
      rw [nothing] at inside
      contradiction
  · intro free piece known
    have nothing : piece = [] := by
      apply List.eq_nil_iff_forall_not_mem.mpr
      intro c inside
      obtain ⟨member, plain⟩ := Text.mem_and_not_mark_of_mem_splitOnP known c inside
      rw [free c member] at plain
      contradiction
    simp [nothing]

theorem ne_nil_of_mem_words {label word : Text} (member : word ∈ words label) : word ≠ [] := by
  obtain ⟨run, kept, rfl⟩ := List.mem_map.mp member
  simpa using (List.mem_filter.mp kept).2

theorem plain_eq_nil {label : Text} : plain label = [] ↔ words label = [] := by
  rw [plain]
  cases shown : words label with
  | nil => simp
  | cons word rest =>
    have filled : word ≠ [] := ne_nil_of_mem_words (shown ▸ List.mem_cons_self)
    cases rest with
    | nil => simpa using filled
    | cons next more => simp [List.intercalate_cons_cons]

theorem ofLabel_eq_nil {label : Text} :
    ofLabel label = [] ↔ ∀ c ∈ label, c.isAlphanum = false := by
  rw [← words_eq_nil, ← plain_eq_nil, ofLabel, escape]
  split
  · rename_i keyword
    have filled : plain label ≠ [] := by
      intro empty
      rw [empty] at keyword
      exact absurd keyword (by decide)
    simp [filled]
  · exact Iff.rfl

theorem Spelled.not_mem {id : Ident} (spelled : Spelled id) {c : Char}
    (other : isLetter c = false) : c ∉ id := by
  intro member
  rw [spelled c member] at other
  contradiction

end Flowchart.Ident
