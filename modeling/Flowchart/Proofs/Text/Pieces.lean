import Flowchart.Text.Basic

/-!
Where a text falls apart. The pieces between marks hold no mark and nothing new, so lines hold no
line feed and joined lines come apart again.
-/
namespace Flowchart.Text

theorem mem_and_not_mark_of_mem_splitOnP {mark : Char → Bool} {text piece : Text}
    (member : piece ∈ text.splitOnP mark) : ∀ c ∈ piece, c ∈ text ∧ mark c = false := by
  induction text generalizing piece with
  | nil =>
    intro c inside
    rw [List.splitOnP_nil, List.mem_singleton] at member
    simp [member] at inside
  | cons first rest ih =>
    have later {other : Text} (known : other ∈ rest.splitOnP mark) :
        ∀ c ∈ other, c ∈ first :: rest ∧ mark c = false := by
      intro c inside
      have found := ih known c inside
      exact ⟨List.mem_cons_of_mem first found.1, found.2⟩
    rw [List.splitOnP_cons_eq_if_modifyHead] at member
    split at member
    · rcases List.mem_cons.mp member with rfl | known
      · simp
      · exact later known
    · rename_i plain
      obtain ⟨head, tail, shown⟩ := List.exists_cons_of_ne_nil (List.splitOnP_ne_nil mark rest)
      rw [shown, List.modifyHead_cons] at member
      rcases List.mem_cons.mp member with rfl | known
      · intro c inside
        rcases List.mem_cons.mp inside with rfl | deeper
        · exact ⟨List.mem_cons_self, Bool.eq_false_iff.mpr plain⟩
        · exact later (shown ▸ List.mem_cons_self) c deeper
      · exact later (shown ▸ List.mem_cons_of_mem head known)

/-- Splitting loses nothing but the marks. -/
theorem exists_mem_splitOnP {mark : Char → Bool} {text : Text} {c : Char} (member : c ∈ text)
    (plain : mark c = false) : ∃ piece ∈ text.splitOnP mark, c ∈ piece := by
  induction text with
  | nil => contradiction
  | cons first rest ih =>
    obtain ⟨head, tail, shown⟩ := List.exists_cons_of_ne_nil (List.splitOnP_ne_nil mark rest)
    rw [List.splitOnP_cons_eq_if_modifyHead, shown, List.modifyHead_cons]
    rw [shown] at ih
    rcases List.mem_cons.mp member with rfl | later
    · simp [plain]
    · obtain ⟨piece, known, inside⟩ := ih later
      split
      · exact ⟨piece, List.mem_cons_of_mem [] known, inside⟩
      · rcases List.mem_cons.mp known with rfl | other
        · exact ⟨first :: piece, List.mem_cons_self, List.mem_cons_of_mem first inside⟩
        · exact ⟨piece, List.mem_cons_of_mem _ other, inside⟩

theorem not_mem_of_mem_splitOn {mark : Char} {text piece : Text}
    (member : piece ∈ text.splitOn mark) : mark ∉ piece := by
  intro inside
  rw [List.splitOn_eq_splitOnP] at member
  have plain := (mem_and_not_mark_of_mem_splitOnP member mark inside).2
  simp at plain

theorem mem_of_mem_splitOn {mark c : Char} {text piece : Text}
    (member : piece ∈ text.splitOn mark) (inside : c ∈ piece) : c ∈ text := by
  rw [List.splitOn_eq_splitOnP] at member
  exact (mem_and_not_mark_of_mem_splitOnP member c inside).1

theorem not_mem_of_mem_lines {text line : Text} (member : line ∈ lines text) : '\n' ∉ line :=
  not_mem_of_mem_splitOn member

theorem lines_unlines {pieces : List Text} (plain : ∀ piece ∈ pieces, '\n' ∉ piece)
    (nonempty : pieces ≠ []) : lines (unlines pieces) = pieces :=
  List.splitOn_intercalate '\n' plain nonempty

/-- Lines behind another line. -/
def continued (lines : List Text) : Text := lines.flatMap ('\n' :: ·)

theorem unlines_cons (line : Text) (rest : List Text) :
    unlines (line :: rest) = line ++ continued rest := by
  induction rest generalizing line with
  | nil => simp [unlines, continued]
  | cons next rest ih =>
    calc
      unlines (line :: next :: rest) = line ++ ['\n'] ++ unlines (next :: rest) :=
        List.intercalate_cons_cons
      _ = line ++ '\n' :: (next ++ continued rest) := by
        rw [ih, List.append_assoc, List.singleton_append]

theorem continued_cons (line : Text) (rest : List Text) :
    continued (line :: rest) = '\n' :: unlines (line :: rest) := by
  rw [unlines_cons]
  rfl

theorem unlines_append (line : Text) (rest more : List Text) :
    unlines (line :: rest ++ more) = unlines (line :: rest) ++ continued more := by
  rw [List.cons_append, unlines_cons, unlines_cons, List.append_assoc]
  exact congrArg (line ++ ·) List.flatMap_append

theorem mem_of_mem_intercalate {mark c : Char} {pieces : List Text}
    (member : c ∈ [mark].intercalate pieces) : c = mark ∨ ∃ piece ∈ pieces, c ∈ piece := by
  induction pieces with
  | nil => simp at member
  | cons piece more ih =>
    cases more with
    | nil => exact .inr ⟨piece, List.mem_cons_self, by simpa using member⟩
    | cons next others =>
      rw [List.intercalate_cons_cons, List.append_assoc] at member
      rcases List.mem_append.mp member with first | later
      · exact .inr ⟨piece, List.mem_cons_self, first⟩
      · rcases List.mem_cons.mp later with same | deeper
        · exact .inl same
        · rcases ih deeper with same | ⟨found, known, inside⟩
          · exact .inl same
          · exact .inr ⟨found, List.mem_cons_of_mem piece known, inside⟩

theorem cutAt?_append {mark : Char} {before : Text} (absent : mark ∉ before) (after : Text) :
    cutAt? mark (before ++ mark :: after) = some (before, after) := by
  induction before with
  | nil => simp [cutAt?]
  | cons c rest ih =>
    obtain ⟨other, later⟩ := not_or.mp (mt List.mem_cons.mpr absent)
    simp [cutAt?, Ne.symm other, ih later]

/-- What follows the last mark goes on behind it. -/
theorem cutAt?_append_of_not_mem {mark : Char} {tail : Text} (absent : mark ∉ tail) (text : Text) :
    cutAt? mark (text ++ tail) = (cutAt? mark text).map fun cut => (cut.1, cut.2 ++ tail) := by
  induction text with
  | nil =>
    cases found : cutAt? mark tail with
    | none => simp [cutAt?, found]
    | some cut =>
      have joined := (append_of_cutAt? found).1
      exact absurd (joined ▸ List.mem_append_right cut.1 List.mem_cons_self) absent
  | cons c rest ih =>
    rw [List.cons_append, cutAt?, cutAt?]
    split
    · rfl
    · rw [ih, Option.map_map, Option.map_map]
      rfl

/-- A text without a mark belongs to the last piece. -/
theorem exists_splitOn_append {mark : Char} {tail : Text} (absent : mark ∉ tail) (text : Text) :
    ∃ front last, text.splitOn mark = front ++ [last] ∧
      (text ++ tail).splitOn mark = front ++ [last ++ tail] := by
  induction text with
  | nil => exact ⟨[], [], rfl, List.splitOn_eq_singleton absent⟩
  | cons c rest ih =>
    obtain ⟨front, last, pieces, longer⟩ := ih
    rw [List.splitOn_eq_splitOnP] at pieces longer
    simp only [List.splitOn_eq_splitOnP, List.cons_append, List.splitOnP_cons_eq_if_modifyHead,
      pieces, longer]
    split
    · exact ⟨[] :: front, last, rfl, rfl⟩
    · cases front with
      | nil => exact ⟨[], c :: last, rfl, rfl⟩
      | cons first front => exact ⟨(c :: first) :: front, last, rfl, rfl⟩

theorem append_of_dropStart? {start text rest : Text}
    (dropped : dropStart? start text = some rest) : text = start ++ rest := by
  rw [dropStart?] at dropped
  split at dropped
  · rename_i first
    rw [← Option.some.inj dropped]
    exact (List.prefix_iff_eq_append.mp (List.isPrefixOf_iff_prefix.mp first)).symm
  · contradiction

theorem dropStart?_append (start rest : Text) : dropStart? start (start ++ rest) = some rest := by
  rw [dropStart?, if_pos (by simp), List.drop_left]

theorem occursIn_iff {part text : Text} : occursIn part text = true ↔ part <:+: text := by
  induction text with
  | nil => simp [occursIn]
  | cons c rest ih =>
    rw [occursIn, Bool.or_eq_true, ih, List.isPrefixOf_iff_prefix, List.infix_cons_iff]

/-- A word in front of a text that goes on with a space behind its own characters, if at all, is
already in front of these. -/
theorem prefix_of_break {word text rest : Text} (free : ' ' ∉ word)
    (broken : ∀ c ∈ rest.head?, c = ' ') (start : word <+: text ++ rest) : word <+: text := by
  rcases List.prefix_or_prefix_of_prefix start (List.prefix_append text rest) with inside | beyond
  · exact inside
  · obtain ⟨more, rfl⟩ := beyond
    have behind : more <+: rest := (List.prefix_append_right_inj text).mp start
    cases more with
    | nil => simp
    | cons c others =>
      obtain ⟨tail, rfl⟩ := behind
      have space : c = ' ' := broken c rfl
      exact absurd (List.mem_append_right text (space ▸ List.mem_cons_self)) free

theorem word_of_break {word text rest : Text} (free : ' ' ∉ word)
    (broken : ∀ c ∈ rest.head?, c = ' ') (start : word ++ [' '] <+: text ++ rest) :
    text = word ∨ word ++ [' '] <+: text := by
  have inside : word <+: text :=
    prefix_of_break free broken ((List.prefix_append word [' ']).trans start)
  obtain ⟨more, rfl⟩ := inside
  cases more with
  | nil => exact .inl (List.append_nil word)
  | cons c others =>
    rw [List.append_assoc, List.prefix_append_right_inj, List.cons_append,
      List.cons_prefix_cons] at start
    rw [← start.1]
    exact .inr ⟨others, by simp⟩

end Flowchart.Text
