import Flowchart.Proofs.Declaration
import Flowchart.Proofs.Ident

/-!
What an identifier tells about its label. A text falls into gaps and maximal runs of letters and
digits, and the identifier holds the runs in lower case and nothing else. So labels share their
identifier if they have the same words; only the mark that sets a keyword apart is a word itself.
-/
namespace Flowchart.Ident

variable {text label front back gap : Text} {runs : List Text} {c : Char}

/-- A text with its maximal runs of letters and digits in their order. -/
inductive Runs : Text → List Text → Prop
  | gap {gap : Text} (free : ∀ c ∈ gap, c.isAlphanum = false) : Runs gap []
  | run {gap run rest : Text} {runs : List Text} (free : ∀ c ∈ gap, c.isAlphanum = false)
    (nonempty : run ≠ []) (letters : ∀ c ∈ run, c.isAlphanum = true)
    (ends : ∀ c ∈ rest.head?, c.isAlphanum = false) (later : Runs rest runs) :
    Runs (gap ++ (run ++ rest)) (run :: runs)

namespace Runs

theorem cons_gap (falls : Runs text runs) (other : c.isAlphanum = false) :
    Runs (c :: text) runs := by
  cases falls with
  | gap free => exact .gap (List.forall_mem_cons.mpr ⟨other, free⟩)
  | run free nonempty letters ends later =>
    rw [← List.cons_append]
    exact .run (List.forall_mem_cons.mpr ⟨other, free⟩) nonempty letters ends later

theorem cons_letter (falls : Runs text runs) (letter : c.isAlphanum = true) :
    ∃ runs, Runs (c :: text) runs := by
  have alone : ∀ d ∈ [c], d.isAlphanum = true := List.forall_mem_singleton.mpr letter
  cases falls with
  | gap free =>
    have ends : ∀ d ∈ text.head?, d.isAlphanum = false := fun d first =>
      free d (List.mem_of_mem_head? first)
    exact ⟨_, .run (List.forall_mem_nil _) (List.cons_ne_nil c []) alone ends (.gap free)⟩
  | @run gap run rest runs free nonempty letters ends later =>
    cases gap with
    | nil =>
      -- The letter comes in front of the first run.
      have longer : ∀ d ∈ c :: run, d.isAlphanum = true :=
        List.forall_mem_cons.mpr ⟨letter, letters⟩
      exact ⟨_, .run (List.forall_mem_nil _) (List.cons_ne_nil c run) longer ends later⟩
    | cons d gap =>
      have apart : ∀ e ∈ (d :: gap ++ (run ++ rest)).head?, e.isAlphanum = false := by
        intro e first
        exact Option.some.inj first ▸ free d List.mem_cons_self
      exact ⟨_, .run (List.forall_mem_nil _) (List.cons_ne_nil c []) alone apart
        (.run free nonempty letters ends later)⟩

end Runs

theorem exists_runs (text : Text) : ∃ runs, Runs text runs := by
  induction text with
  | nil => exact ⟨[], .gap (List.forall_mem_nil _)⟩
  | cons c rest ih =>
    obtain ⟨runs, falls⟩ := ih
    cases letter : c.isAlphanum with
    | false => exact ⟨runs, falls.cons_gap letter⟩
    | true => exact falls.cons_letter letter

/-! ### Words of texts put together -/

@[simp] theorem words_nil : words [] = [] := rfl

/-- Anything but a letter or a digit parts the words. -/
theorem words_append_cons (front back : Text) (other : c.isAlphanum = false) :
    words (front ++ c :: back) = words front ++ words back := by
  rw [words, List.splitOnP_append_cons front back (by simp [other]), List.filter_append,
    List.map_append]
  rfl

theorem words_cons (back : Text) (other : c.isAlphanum = false) : words (c :: back) = words back :=
  words_append_cons [] back other

theorem words_gap_append (free : ∀ c ∈ gap, c.isAlphanum = false) (back : Text) :
    words (gap ++ back) = words back := by
  induction gap with
  | nil => rfl
  | cons c gap ih =>
    obtain ⟨other, later⟩ := List.forall_mem_cons.mp free
    rw [List.cons_append, words_cons _ other, ih later]

theorem words_append_gap (front : Text) (free : ∀ c ∈ gap, c.isAlphanum = false) :
    words (front ++ gap) = words front := by
  cases gap with
  | nil => rw [List.append_nil]
  | cons c gap =>
    obtain ⟨other, later⟩ := List.forall_mem_cons.mp free
    rw [words_append_cons front gap other, words_eq_nil.mpr later, List.append_nil]

theorem words_run {run : Text} (nonempty : run ≠ []) (letters : ∀ c ∈ run, c.isAlphanum = true) :
    words run = [run.map Char.toLower] := by
  have whole : run.splitOnP (!·.isAlphanum) = [run] :=
    List.splitOnP_eq_singleton fun c member => by simp [letters c member]
  simp [words, whole, nonempty]

/-- The words of a label are its maximal runs in lower case. -/
theorem Runs.words_eq (falls : Runs label runs) : words label = runs.map (·.map Char.toLower) := by
  induction falls with
  | gap free => exact words_eq_nil.mpr free
  | @run gap run rest runs free nonempty letters ends later ih =>
    rw [words_gap_append free, List.map_cons, ← ih]
    cases rest with
    | nil => rw [List.append_nil, words_run nonempty letters, words_nil]
    | cons c rest =>
      have other := ends c rfl
      rw [words_append_cons run rest other, words_run nonempty letters, words_cons rest other]
      rfl

/-! ### Labels in quotes -/

theorem isAlphanum_of_isQuote (quote : Text.isQuote c = true) : c.isAlphanum = false := by
  rw [Text.isQuote, Bool.or_eq_true, beq_iff_eq, beq_iff_eq] at quote
  rcases quote with rfl | rfl <;> rfl

theorem words_dropFirstQuote (text : Text) : words (Text.dropFirstQuote text) = words text := by
  cases text with
  | nil => rfl
  | cons c rest =>
    rw [Text.dropFirstQuote]
    split
    · rename_i quote
      rw [words_cons rest (isAlphanum_of_isQuote quote)]
    · rfl

/-- The same at the other end, whatever gap comes behind it. -/
theorem words_dropFirstQuote_reverse (before : Text) (free : ∀ c ∈ gap, c.isAlphanum = false) :
    words ((Text.dropFirstQuote before).reverse ++ gap) = words (before.reverse ++ gap) := by
  rw [words_append_gap _ free, words_append_gap _ free]
  cases before with
  | nil => rfl
  | cons c rest =>
    rw [Text.dropFirstQuote]
    split
    · rename_i quote
      rw [List.reverse_cons, words_append_cons _ _ (isAlphanum_of_isQuote quote), words_nil,
        List.append_nil]
    · rfl

theorem words_dropLastQuote (text : Text) : words (Text.dropLastQuote text) = words text := by
  rw [Text.dropLastQuote]
  split
  · rename_i before shown
    rw [words_dropFirstQuote_reverse before (List.forall_mem_singleton.mpr rfl),
      ← List.reverse_cons, ← shown, List.reverse_reverse]
  · have nothing : ∀ c ∈ ([] : Text), c.isAlphanum = false := List.forall_mem_nil _
    simpa using words_dropFirstQuote_reverse text.reverse nothing

theorem words_stripQuotes (text : Text) : words (Text.stripQuotes text) = words text := by
  rw [Text.stripQuotes, words_dropLastQuote, words_dropFirstQuote]

theorem ofLabel_congr {other : Text} (same : words label = words other) :
    ofLabel label = ofLabel other := by
  rw [ofLabel, plain, same]
  rfl

/-! ### Words are read back -/

theorem toLower_ne_underscore (letter : c.isAlphanum = true) : c.toLower ≠ '_' :=
  forall_isAlphanum (P := fun c => c.isAlphanum = true → c.toLower ≠ '_') (by decide) letter letter

theorem not_mem_of_mem_words {word : Text} (member : word ∈ words label) : '_' ∉ word := by
  obtain ⟨run, kept, rfl⟩ := List.mem_map.mp member
  intro inside
  obtain ⟨raw, within, same⟩ := List.mem_map.mp inside
  have letter := (Text.mem_and_not_mark_of_mem_splitOnP (List.mem_filter.mp kept).1 raw within).2
  exact toLower_ne_underscore (by simpa using letter) same

/-- Words without underscores that are not empty can be read off their identifier. -/
theorem plain_eq_intercalate_iff {others : List Text}
    (proper : ∀ word ∈ others, word ≠ [] ∧ '_' ∉ word) :
    plain label = ['_'].intercalate others ↔ words label = others := by
  constructor
  · intro same
    have back {all : List Text} (free : ∀ word ∈ all, '_' ∉ word) (some : all ≠ []) :=
      List.splitOn_intercalate '_' free some
    cases shown : words label with
    | nil =>
      rw [plain_eq_nil.mpr shown] at same
      cases others with
      | nil => rfl
      | cons word rest =>
        have filled := (proper word List.mem_cons_self).1
        cases rest with
        | nil => exact absurd (by simpa using same.symm) filled
        | cons next more => simp [List.intercalate_cons_cons] at same
    | cons word rest =>
      have some : words label ≠ [] := shown ▸ List.cons_ne_nil word rest
      have others_some : others ≠ [] := by
        rintro rfl
        exact some (plain_eq_nil.mp same)
      rw [← shown, ← back (fun _ => not_mem_of_mem_words) some,
        ← back (fun word member => (proper word member).2) others_some, ← same]
      rfl
  · rintro rfl
    rfl

theorem plain_eq_iff {other : Text} : plain label = plain other ↔ words label = words other :=
  plain_eq_intercalate_iff fun _ member => ⟨ne_nil_of_mem_words member, not_mem_of_mem_words member⟩

/-- What keywords are set apart by, as a word. -/
def apart : Text := "node".toList

theorem reserved_proper : ∀ word ∈ reserved, word ≠ [] ∧ '_' ∉ word := by decide

theorem plain_eq_reserved_iff {word : Text} (keyword : word ∈ reserved) :
    plain label = word ↔ words label = [word] := by
  have proper : ∀ other ∈ [word], other ≠ [] ∧ '_' ∉ other :=
    List.forall_mem_singleton.mpr (reserved_proper word keyword)
  have same : plain label = ['_'].intercalate [word] ↔ words label = [word] :=
    plain_eq_intercalate_iff proper
  simpa using same

theorem plain_eq_apart_iff {word : Text} (keyword : word ∈ reserved) :
    plain label = "node_".toList ++ word ↔ words label = [apart, word] := by
  have proper : ∀ other ∈ [apart, word], other ≠ [] ∧ '_' ∉ other := by
    refine List.forall_mem_cons.mpr ⟨by decide, ?_⟩
    exact List.forall_mem_singleton.mpr (reserved_proper word keyword)
  have joined : "node_".toList ++ word = ['_'].intercalate [apart, word] := by
    rw [List.intercalate_cons_cons, List.intercalate_singleton]
    rfl
  rw [joined]
  exact plain_eq_intercalate_iff proper

/-- A keyword that is set apart is the only name that two names can become. -/
theorem escape_eq_iff {first second : Ident} : escape first = escape second ↔
    first = second ∨ ∃ word ∈ reserved,
      first = word ∧ second = "node_".toList ++ word ∨
        first = "node_".toList ++ word ∧ second = word := by
  have marked : ∀ word ∈ reserved, "node_".toList ++ word ∉ reserved := by decide
  constructor
  · intro same
    rw [escape, escape] at same
    split at same
    · rename_i keyword
      split at same
      · exact .inl (List.append_cancel_left same)
      · exact .inr ⟨first, keyword, .inl ⟨rfl, same.symm⟩⟩
    · split at same
      · rename_i keyword
        exact .inr ⟨second, keyword, .inr ⟨same, rfl⟩⟩
      · exact .inl same
  · rintro (rfl | ⟨word, keyword, ⟨rfl, rfl⟩ | ⟨rfl, rfl⟩⟩)
    · rfl
    · rw [escape, escape, if_pos keyword, if_neg (marked _ keyword)]
    · rw [escape, escape, if_pos keyword, if_neg (marked _ keyword)]

end Flowchart.Ident
