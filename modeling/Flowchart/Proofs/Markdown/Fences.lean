import Flowchart.Fence
import Flowchart.Proofs.Text.Pieces
import Mathlib.Data.List.TakeWhile

/-!
What fences look like. A fence is an indentation and a run of one character, so a line tells the
only fence that it can belong to, and a line that starts with anything else belongs to none.
-/
namespace Flowchart.Fence

variable {fence other : Fence} {line rest front back : Text} {c : Char}

/-- A character that fences are made of. -/
def isTick (c : Char) : Bool := c == backtick || c == '~'

theorem isTick_of_isSpace (space : isSpace c = true) : isTick c = false := by
  rw [isSpace, Bool.or_eq_true, beq_iff_eq, beq_iff_eq] at space
  rcases space with rfl | rfl <;> rfl

theorem isSpace_of_isTick (tick : isTick c = true) : isSpace c = false := by
  rw [isTick, Bool.or_eq_true, beq_iff_eq, beq_iff_eq] at tick
  rcases tick with rfl | rfl <;> rfl

/-- A fence as an opening line has it. -/
structure Legal (fence : Fence) : Prop where
  indent : ∀ c ∈ fence.indent, isSpace c = true
  ticks : ∃ mark n, isTick mark = true ∧ fence.ticks = List.replicate (n + 3) mark

theorem ticks?_shape {text run : Text} (found : ticks? text = some run) :
    ∃ mark n, isTick mark = true ∧ run = List.replicate (n + 3) mark := by
  cases text with
  | nil => contradiction
  | cons mark rest =>
    rw [ticks?] at found
    split at found
    · rename_i long
      obtain rfl := Option.some.inj found
      have copies : ∀ c ∈ mark :: rest.takeWhile (· == mark), c = mark := by
        intro c inside
        rcases List.mem_cons.mp inside with same | later
        · exact same
        · have equal := List.mem_takeWhile_imp later
          exact eq_of_beq equal
      obtain ⟨n, size⟩ := Nat.exists_eq_add_of_le' long.2
      exact ⟨mark, n, by simpa [isTick] using long.1, List.eq_replicate_iff.mpr ⟨size, copies⟩⟩
    · contradiction

theorem prefix_of_ticks? {text run : Text} (found : ticks? text = some run) : run <+: text := by
  cases text with
  | nil => contradiction
  | cons mark rest =>
    rw [ticks?] at found
    split at found
    · rw [← Option.some.inj found, List.cons_prefix_cons]
      exact ⟨rfl, List.takeWhile_prefix _⟩
    · contradiction

theorem legal_of_opening? (opens : opening? line = some fence) : fence.Legal := by
  obtain ⟨run, found, later⟩ := Option.bind_eq_some_iff.mp opens
  obtain ⟨_, _, same⟩ := Option.bind_eq_some_iff.mp later
  split at same
  · obtain rfl := Option.some.inj same
    exact ⟨fun c inside => List.mem_takeWhile_imp inside, ticks?_shape found⟩
  · contradiction

namespace Legal

/-- Taking the run off a text that goes on with something else. -/
theorem ticks?_append (legal : fence.Legal) (broken : ∀ c ∈ rest.head?, isTick c = false) :
    ticks? (fence.ticks ++ rest) = some fence.ticks := by
  obtain ⟨mark, n, tick, run⟩ := legal.ticks
  have ends : rest.takeWhile (· == mark) = [] := by
    cases rest with
    | nil => rfl
    | cons c more =>
      have differs : c ≠ mark := by
        rintro rfl
        exact absurd tick (Bool.eq_false_iff.mp (broken c rfl))
      simp [differs]
  have whole : mark :: (List.replicate (n + 2) mark ++ rest).takeWhile (· == mark) =
      List.replicate (n + 3) mark := by
    rw [List.takeWhile_append_of_pos (by simp), ends, List.append_nil]
    rfl
  have long : (mark = backtick ∨ mark = '~') ∧ 3 ≤ (List.replicate (n + 3) mark).length := by
    constructor
    · simpa [isTick] using tick
    · simp
  rw [run]
  change ticks? (mark :: (List.replicate (n + 2) mark ++ rest)) = _
  rw [ticks?, whole, if_pos long]

theorem cut_indent (legal : fence.Legal) (rest : Text) :
    (fence.indent ++ fence.ticks ++ rest).takeWhile isSpace = fence.indent ∧
      (fence.indent ++ fence.ticks ++ rest).dropWhile isSpace = fence.ticks ++ rest := by
  obtain ⟨mark, n, tick, run⟩ := legal.ticks
  have visible : isSpace mark = false := isSpace_of_isTick tick
  have start : fence.ticks ++ rest = mark :: (List.replicate (n + 2) mark ++ rest) := by
    rw [run]
    rfl
  rw [List.append_assoc, List.takeWhile_append_of_pos legal.indent,
    List.dropWhile_append_of_pos legal.indent, start]
  simp [visible]

/-- A line with a fence opens a block by what is behind the fence. -/
theorem opening?_append (legal : fence.Legal) (broken : ∀ c ∈ rest.head?, isTick c = false) :
    opening? (fence.indent ++ fence.ticks ++ rest) =
      (dropLanguage? (rest.dropWhile isSpace)).bind fun behind =>
        if lineDone behind then some fence else none := by
  obtain ⟨before, after⟩ := legal.cut_indent rest
  rw [opening?, before, after, legal.ticks?_append broken]
  simp

/-- The fence line of a chart opens no block. -/
theorem opening?_chart (legal : fence.Legal) :
    opening? (fence.indent ++ fence.ticks ++ "mermaid".toList) = none := by
  have broken : ∀ c ∈ "mermaid".toList.head?, isTick c = false := by
    intro c first
    exact Option.some.inj first ▸ rfl
  rw [legal.opening?_append broken]
  rfl

end Legal

/-! ### Closing lines -/

theorem mem_of_lineDone (done : lineDone rest = true) :
    ∀ c ∈ rest, isSpace c = true ∨ c = '\r' := by
  intro c inside
  rw [← List.takeWhile_append_dropWhile (p := isSpace) (l := rest)] at inside
  rcases List.mem_append.mp inside with space | behind
  · exact .inl (List.mem_takeWhile_imp space)
  · unfold lineDone at done
    split at done
    · rename_i empty
      simp [empty] at behind
    · rename_i last
      exact .inr (by simpa [last] using behind)
    · contradiction

theorem shape_of_isClosing (closes : fence.isClosing line = true) :
    ∃ rest, line = fence.indent ++ fence.ticks ++ rest ∧
      ∀ c ∈ rest, isSpace c = true ∨ c = '\r' := by
  unfold isClosing at closes
  split at closes
  · rename_i rest dropped
    exact ⟨rest, Text.append_of_dropStart? dropped, mem_of_lineDone closes⟩
  · contradiction

theorem isClosing_self (fence : Fence) : fence.isClosing (fence.indent ++ fence.ticks) = true := by
  have whole := Text.dropStart?_append (fence.indent ++ fence.ticks) []
  rw [List.append_nil] at whole
  rw [isClosing, whole]
  rfl

theorem isTick_of_end (blank : isSpace c = true ∨ c = '\r') : isTick c = false := by
  rcases blank with space | rfl
  · exact isTick_of_isSpace space
  · rfl

namespace Legal

/-- A closing line opens no block. -/
theorem opening?_of_isClosing (legal : fence.Legal) (closes : fence.isClosing line = true) :
    opening? line = none := by
  unfold isClosing at closes
  split at closes
  · rename_i rest dropped
    have broken : ∀ c ∈ rest.head?, isTick c = false := fun c first =>
      isTick_of_end (mem_of_lineDone closes c (List.mem_of_head? first))
    have wordless : dropLanguage? (rest.dropWhile isSpace) = none := by
      unfold lineDone at closes
      split at closes
      · rename_i empty
        rw [empty]
        rfl
      · rename_i last
        rw [last]
        rfl
      · contradiction
    rw [Text.append_of_dropStart? dropped, legal.opening?_append broken, wordless]
    rfl
  · contradiction

theorem mem_of_isClosing (legal : fence.Legal) (closes : fence.isClosing line = true) :
    ∀ c ∈ line, isTick c = true ∨ isSpace c = true ∨ c = '\r' := by
  obtain ⟨rest, rfl, blank⟩ := shape_of_isClosing closes
  obtain ⟨mark, n, tick, run⟩ := legal.ticks
  intro c inside
  rw [List.mem_append, List.mem_append, run] at inside
  rcases inside with (space | copy) | behind
  · exact .inr (.inl (legal.indent c space))
  · exact .inl (List.eq_of_mem_replicate copy ▸ tick)
  · exact .inr (blank c behind)

theorem single_line (legal : fence.Legal) : '\n' ∉ fence.indent ++ fence.ticks := by
  intro inside
  exact absurd (legal.mem_of_isClosing fence.isClosing_self '\n' inside) (by decide)

/-- A closing line tells its fence. -/
theorem eq_of_isClosing (legal : fence.Legal) (also : other.Legal)
    (closes : fence.isClosing line = true) (again : other.isClosing line = true) :
    fence = other := by
  obtain ⟨rest, shown, blank⟩ := shape_of_isClosing closes
  obtain ⟨more, same, blanks⟩ := shape_of_isClosing again
  have broken : ∀ c ∈ rest.head?, isTick c = false := fun c first =>
    isTick_of_end (blank c (List.mem_of_head? first))
  have ends : ∀ c ∈ more.head?, isTick c = false := fun c first =>
    isTick_of_end (blanks c (List.mem_of_head? first))
  have indent : fence.indent = other.indent := by
    rw [← (legal.cut_indent rest).1, ← shown, same, (also.cut_indent more).1]
  have ticks : some fence.ticks = some other.ticks := by
    rw [← legal.ticks?_append broken, ← (legal.cut_indent rest).2, ← shown, same,
      (also.cut_indent more).2, also.ticks?_append ends]
  cases fence
  cases other
  simp_all

end Legal

/-! ### Lines without a fence -/

/-- A line whose first character behind spaces and tabs makes no fence. -/
def Tickless (line : Text) : Prop := ∀ c ∈ (line.dropWhile isSpace).head?, isTick c = false

theorem tickless_of_head (head : (line.dropWhile isSpace).head? = some c)
    (plain : isTick c = false) : Tickless line := by
  intro other first
  rw [head] at first
  exact Option.some.inj first ▸ plain

theorem tickless_cons (visible : isSpace c = false) (plain : isTick c = false) :
    Tickless (c :: rest) :=
  tickless_of_head (by simp [visible]) plain

theorem tickless_append (free : ∀ c ∈ front, isTick c = false) (plain : Tickless back) :
    Tickless (front ++ back) := by
  intro c first
  rw [List.dropWhile_append] at first
  split at first
  · exact plain c first
  · have start : c ∈ ((front.dropWhile isSpace) ++ back).head? := first
    rename_i visible
    cases shown : front.dropWhile isSpace with
    | nil => simp [shown] at visible
    | cons d more =>
      rw [shown] at start
      have member : d ∈ front := (List.dropWhile_sublist _).subset (shown ▸ List.mem_cons_self)
      exact Option.some.inj start ▸ free d member

theorem tickless_of_free (free : ∀ c ∈ line, isTick c = false) : Tickless line := by
  rw [← List.append_nil line]
  exact tickless_append free nofun

theorem Tickless.opening?_eq_none (plain : Tickless line) : opening? line = none := by
  have runless : ticks? (line.dropWhile isSpace) = none := by
    cases shown : line.dropWhile isSpace with
    | nil => rfl
    | cons c more =>
      have other : ¬(c = backtick ∨ c = '~') := by
        simpa [isTick] using plain c (by rw [shown]; rfl)
      rw [ticks?]
      exact if_neg fun long => other long.1
  simp [opening?, runless]

/-- A line behind the indentation of the fence; an empty line stays empty. -/
def indented (fence : Fence) (line : Text) : Text :=
  if line.isEmpty then line else fence.indent ++ line

theorem Legal.tickless_indented (legal : fence.Legal) (plain : Tickless line) :
    Tickless (fence.indented line) := by
  have free : ∀ c ∈ fence.indent, isTick c = false := fun c space =>
    isTick_of_isSpace (legal.indent c space)
  rw [indented]
  split
  · exact plain
  · exact tickless_append free plain

theorem Tickless.isClosing_eq_false (plain : Tickless line) (legal : fence.Legal) :
    fence.isClosing line = false := by
  by_contra closes
  obtain ⟨rest, rfl, _⟩ := shape_of_isClosing (Bool.not_eq_false _ ▸ closes)
  obtain ⟨mark, n, tick, run⟩ := legal.ticks
  have first : mark ∈ ((fence.indent ++ fence.ticks ++ rest).dropWhile isSpace).head? := by
    rw [(legal.cut_indent rest).2, run]
    rfl
  rw [plain mark first] at tick
  contradiction

end Flowchart.Fence
