import Flowchart.Text.Blank
import Mathlib.Data.List.DropRight

/-!
Trimmed texts. Trimming drops blanks at the ends and nothing else, so a trimmed text begins and ends
with a character that can be seen, and so does every text put together with trimmed ends.
-/
namespace Flowchart.Text

/-- No blank stands at either end. -/
def Trimmed (text : Text) : Prop := trim text = text

theorem trim_eq (text : Text) : trim text = (trimLeft text).rdropWhile isBlank := rfl

theorem trim_sublist (text : Text) : (trim text).Sublist text := by
  have right : (trim text).Sublist (trimLeft text) :=
    (List.rdropWhile_prefix isBlank _).sublist
  exact right.trans (List.dropWhile_sublist isBlank)

theorem mem_of_mem_trim {c : Char} {text : Text} (member : c ∈ trim text) : c ∈ text :=
  (trim_sublist text).subset member

theorem trimLeft_trim (text : Text) : trimLeft (trim text) = trim text := by
  apply List.dropWhile_eq_self_iff.mpr
  intro nonempty
  -- The first character that is left is the first one behind the leading blanks.
  have start : trim text <+: trimLeft text := List.rdropWhile_prefix isBlank (trimLeft text)
  rw [start.getElem nonempty]
  exact List.dropWhile_get_zero_not isBlank text _

theorem trimmed_trim (text : Text) : Trimmed (trim text) := by
  have right : (trim text).rdropWhile isBlank = trim text := by
    rw [trim_eq, List.rdropWhile_idempotent]
  rw [Trimmed, trim_eq, trimLeft_trim, right]

theorem mem_trim_of_visible {c : Char} {text : Text} (member : c ∈ text)
    (visible : isBlank c = false) : c ∈ trim text := by
  have left : c ∈ trimLeft text := by
    rw [← indent_append_trimLeft text] at member
    rcases List.mem_append.mp member with lead | rest
    · have blank := List.mem_takeWhile_imp lead
      rw [visible] at blank
      contradiction
    · exact rest
  rw [← List.rdropWhile_append_rtakeWhile (p := isBlank) (l := trimLeft text)] at left
  rcases List.mem_append.mp left with rest | tail
  · exact rest
  · have blank := List.mem_rtakeWhile_imp tail
    rw [visible] at blank
    contradiction

theorem Trimmed.getLast_visible {text : Text} (trimmed : Trimmed text) (nonempty : text ≠ []) :
    isBlank (text.getLast nonempty) = false := by
  have kept : (trim text).getLast (trimmed.symm ▸ nonempty) = text.getLast nonempty := by
    congr 1
  rw [← kept]
  exact Bool.eq_false_iff.mpr (List.rdropWhile_last_not isBlank (trimLeft text) _)

/-- The end of a trimmed text shows something, where it begins does not matter. -/
theorem Trimmed.trim_end_ne_nil {front back : Text} (trimmed : Trimmed (front ++ back))
    (nonempty : back ≠ []) : trim back ≠ [] := by
  have visible := trimmed.getLast_visible (List.append_ne_nil_of_right_ne_nil front nonempty)
  rw [List.getLast_append_of_right_ne_nil _ _ nonempty] at visible
  exact List.ne_nil_of_mem (mem_trim_of_visible (List.getLast_mem nonempty) visible)

theorem Trimmed.head_visible {c : Char} {rest : Text} (trimmed : Trimmed (c :: rest)) :
    isBlank c = false := by
  have start : trimLeft (c :: rest) = c :: rest := by
    rw [← trimmed, trimLeft_trim]
  rw [trimLeft, List.dropWhile_eq_self_iff] at start
  exact Bool.eq_false_iff.mpr (start (List.length_pos_of_ne_nil (List.cons_ne_nil c rest)))

theorem trimLeft_cons_of_visible {c : Char} (rest : Text) (visible : isBlank c = false) :
    trimLeft (c :: rest) = c :: rest := by
  simp [trimLeft, visible]

theorem trimLeft_cons_of_blank {c : Char} (rest : Text) (blank : isBlank c = true) :
    trimLeft (c :: rest) = trimLeft rest := by
  simp [trimLeft, blank]

theorem trim_cons_of_blank {c : Char} (text : Text) (blank : isBlank c = true) :
    trim (c :: text) = trim text := by
  rw [trim, trimLeft_cons_of_blank text blank, trim]

theorem trimmed_of_ends {text : Text} (first : ∀ c ∈ text.head?, isBlank c = false)
    (last : ∀ c ∈ text.getLast?, isBlank c = false) : Trimmed text := by
  have left : trimLeft text = text := by
    cases text with
    | nil => rfl
    | cons c rest => exact trimLeft_cons_of_visible rest (first c rfl)
  rw [Trimmed, trim_eq, left, List.rdropWhile_eq_self_iff]
  intro nonempty
  have visible := last _ (List.getLast?_eq_some_getLast nonempty)
  simp [visible]

theorem trimmed_singleton {c : Char} (visible : isBlank c = false) : Trimmed [c] := by
  apply trimmed_of_ends <;> simp [visible]

/-- What stands between two trimmed texts does not matter. -/
theorem Trimmed.append {front back : Text} (trimmed : Trimmed front) (also : Trimmed back)
    (nonempty : front ≠ []) (shown : back ≠ []) (middle : Text) :
    Trimmed (front ++ middle ++ back) := by
  apply trimmed_of_ends
  · intro c found
    cases front with
    | nil => contradiction
    | cons d rest =>
      have same : d = c := by simpa using found
      exact same ▸ trimmed.head_visible
  · intro c found
    rw [List.getLast?_append_of_ne_nil _ shown, List.getLast?_eq_some_getLast shown] at found
    exact Option.some.inj found ▸ also.getLast_visible shown

/-- The leading blanks of a text that shows something are within it, whatever follows. -/
theorem trimLeft_append_of_shown {text : Text} (shown : trimLeft text ≠ []) (rest : Text) :
    trimLeft (text ++ rest) = trimLeft text ++ rest := by
  obtain ⟨c, more, start⟩ := List.exists_cons_of_ne_nil shown
  rw [trimLeft] at start
  simp [trimLeft, List.dropWhile_append, start]

theorem length_indent_append_lt {text : Text} (shown : trimLeft text ≠ []) (rest : Text) :
    (indent (text ++ rest)).length < text.length := by
  have whole := congrArg List.length (indent_append_trimLeft (text ++ rest))
  rw [trimLeft_append_of_shown shown] at whole
  have positive := List.length_pos_of_ne_nil shown
  simp only [List.length_append] at whole
  omega

theorem Trimmed.trimLeft_end_ne_nil {front back : Text} (trimmed : Trimmed (front ++ back))
    (nonempty : back ≠ []) : trimLeft back ≠ [] := by
  intro empty
  apply trimmed.trim_end_ne_nil nonempty
  rw [trim, empty]
  rfl

/-- Behind the leading blanks comes a character of the text, whatever follows it. -/
theorem Trimmed.trimLeft_append {front back : Text} (trimmed : Trimmed (front ++ back))
    (nonempty : back ≠ []) (rest : Text) :
    ∃ c ∈ back, ∃ more, trimLeft (back ++ rest) = c :: more := by
  have shown := trimmed.trimLeft_end_ne_nil nonempty
  obtain ⟨c, more, start⟩ := List.exists_cons_of_ne_nil shown
  have member : c ∈ trimLeft back := start ▸ List.mem_cons_self
  refine ⟨c, (List.dropWhile_sublist _).subset member, more ++ rest, ?_⟩
  rw [trimLeft_append_of_shown shown, start, List.cons_append]

/-! ### Blanks in front -/

theorem trimLeft_trimLeft (text : Text) : trimLeft (trimLeft text) = trimLeft text :=
  List.dropWhile_idempotent isBlank text

theorem trim_trimLeft (text : Text) : trim (trimLeft text) = trim text := by
  rw [trim, trimLeft_trimLeft, trim]

theorem trim_eq_nil_iff {text : Text} : trim text = [] ↔ trimLeft text = [] := by
  constructor
  · intro empty
    cases shown : trimLeft text with
    | nil => rfl
    | cons c rest =>
      have visible : isBlank c = false := by
        have first := trimLeft_trimLeft text
        rw [shown, trimLeft, List.dropWhile_eq_self_iff] at first
        exact Bool.eq_false_iff.mpr (first (by simp))
      have kept : c ∈ trim (trimLeft text) :=
        mem_trim_of_visible (shown ▸ List.mem_cons_self) visible
      rw [trim_trimLeft, empty] at kept
      exact absurd kept List.not_mem_nil
  · intro empty
    rw [trim, empty]
    rfl

/-- In front of a mark blanks belong to what is cut off there. -/
theorem cutAt?_trimLeft {mark : Char} (visible : isBlank mark = false) (text : Text) :
    cutAt? mark (trimLeft text) = (cutAt? mark text).map fun cut => (trimLeft cut.1, cut.2) := by
  induction text with
  | nil => rfl
  | cons c rest ih =>
    by_cases blank : isBlank c = true
    · have other : c ≠ mark := by
        rintro rfl
        rw [visible] at blank
        contradiction
      have drops (text : Text) := trimLeft_cons_of_blank text blank
      rw [drops, ih, cutAt?, if_neg other, Option.map_map]
      simp only [Function.comp_def, drops]
    · have stays (text : Text) := trimLeft_cons_of_visible text (Bool.eq_false_iff.mpr blank)
      rw [stays, cutAt?]
      split
      · rfl
      · rw [Option.map_map]
        simp only [Function.comp_def, stays]

/-- Leading blanks belong to the first piece. -/
theorem splitOn_trimLeft {mark : Char} (visible : isBlank mark = false) (text : Text) :
    (trimLeft text).splitOn mark = (text.splitOn mark).modifyHead trimLeft := by
  simp only [List.splitOn_eq_splitOnP]
  induction text with
  | nil => rfl
  | cons c rest ih =>
    obtain ⟨head, tail, shown⟩ :=
      List.exists_cons_of_ne_nil (List.splitOnP_ne_nil (· == mark) rest)
    rw [shown] at ih
    by_cases blank : isBlank c = true
    · have other : (c == mark) = false := by
        apply beq_false_of_ne
        rintro rfl
        rw [visible] at blank
        contradiction
      have drops (text : Text) := trimLeft_cons_of_blank text blank
      rw [drops, ih, List.splitOnP_cons_eq_if_modifyHead, other, shown]
      simp [drops]
    · have stays (text : Text) := trimLeft_cons_of_visible text (Bool.eq_false_iff.mpr blank)
      rw [stays, List.splitOnP_cons_eq_if_modifyHead, shown]
      split
      · rfl
      · simp [stays]

/-! ### Blanks -/

def Blanks (text : Text) : Prop := ∀ c ∈ text, isBlank c = true

theorem blanks_nil : Blanks [] := List.forall_mem_nil _

theorem blanks_space : Blanks [' '] := List.all_eq_true.mp (by decide)

theorem Blanks.append {front back : Text} (blanks : Blanks front) (also : Blanks back) :
    Blanks (front ++ back) :=
  List.forall_mem_append.mpr ⟨blanks, also⟩

theorem blanks_indent (text : Text) : Blanks (indent text) :=
  fun _ member => List.mem_takeWhile_imp member

theorem Blanks.trimLeft_append {gap : Text} (blanks : Blanks gap) (text : Text) :
    trimLeft (gap ++ text) = trimLeft text :=
  List.dropWhile_append_of_pos blanks

theorem Blanks.trim_append {gap : Text} (blanks : Blanks gap) (text : Text) :
    trim (text ++ gap) = trim text := by
  have behind (front : Text) : trimRight (front ++ gap) = trimRight front := by
    have turned : ∀ c ∈ gap.reverse, isBlank c = true :=
      fun c member => blanks c (List.mem_reverse.mp member)
    rw [trimRight, trimRight, List.reverse_append, List.dropWhile_append_of_pos turned]
  by_cases empty : trimLeft text = []
  · have none : (gap.dropWhile isBlank) = [] := List.dropWhile_eq_nil_iff.mpr blanks
    rw [trimLeft] at empty
    simp [trim, trimLeft, List.dropWhile_append, empty, none]
  · rw [trim, trimLeft_append_of_shown empty, behind, trim]

/-- Trimming takes blanks away. -/
theorem exists_blanks (text : Text) :
    ∃ lead tail, text = lead ++ (trim text ++ tail) ∧ Blanks lead ∧ Blanks tail := by
  refine ⟨indent text, (trimLeft text).rtakeWhile isBlank, ?_, blanks_indent text,
    fun _ member => List.mem_rtakeWhile_imp member⟩
  rw [trim_eq, List.rdropWhile_append_rtakeWhile, indent_append_trimLeft]

/-- Characters that are no blanks are kept, all of them and in their order. -/
theorem filter_trim {keep : Char → Bool} (visible : ∀ c, isBlank c = true → keep c = false)
    (text : Text) : (trim text).filter keep = text.filter keep := by
  have gone {gap : Text} (blanks : Blanks gap) : gap.filter keep = [] := by
    apply List.filter_eq_nil_iff.mpr
    intro c member
    simp [visible c (blanks c member)]
  obtain ⟨lead, tail, joined, leading, blanks⟩ := exists_blanks text
  have parts := congrArg (List.filter keep) joined
  rw [List.filter_append, List.filter_append, gone leading, gone blanks, List.append_nil,
    List.nil_append] at parts
  exact parts.symm

theorem count_trim {mark : Char} (visible : isBlank mark = false) (text : Text) :
    (trim text).count mark = text.count mark := by
  have other : ∀ c, isBlank c = true → (c == mark) = false := by
    intro c blank
    apply beq_false_of_ne
    rintro rfl
    rw [visible] at blank
    contradiction
  rw [List.count_eq_length_filter, List.count_eq_length_filter, filter_trim other]

/-- The start of a trimmed text, with the blanks behind it. -/
theorem Trimmed.exists_gap {front rest : Text} (trimmed : Trimmed (front ++ rest))
    (nonempty : front ≠ []) :
    ∃ gap, front = trim front ++ gap ∧ Blanks gap ∧ trim front ≠ [] := by
  obtain ⟨c, more, rfl⟩ := List.exists_cons_of_ne_nil nonempty
  have visible : isBlank c = false := trimmed.head_visible
  obtain ⟨lead, gap, joined, leading, blanks⟩ := exists_blanks (c :: more)
  cases lead with
  | nil =>
    exact ⟨gap, joined, blanks,
      List.ne_nil_of_mem (mem_trim_of_visible List.mem_cons_self visible)⟩
  | cons d lead =>
    obtain ⟨rfl, -⟩ := List.cons.inj joined
    have blank := leading c List.mem_cons_self
    rw [visible] at blank
    contradiction

end Flowchart.Text
