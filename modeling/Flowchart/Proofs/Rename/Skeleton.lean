import Flowchart.Proofs.Cut
import Flowchart.Proofs.Draft.Basic
import Flowchart.Rename

/-!
Skeletons of texts. A text falls apart into labels and the loose characters between them: blanks and
the marks that no label holds. A skeleton leaves open how the labels are spelled, so that texts with
other labels in the same places have one skeleton.
-/
namespace Flowchart

namespace Place

/-- What a label cannot hold: the marks of the language and the end of a line. -/
def marks : List Char := ['<', '>', '[', ']', ':', '\n']

/-- A label that can be renamed. -/
abbrev Label := Phrase marks

/-- A character that stands between labels. -/
def Loose (c : Char) : Prop := Text.isBlank c = true ∨ c ∈ marks

end Place

open Place (Label Loose)

namespace Phrase

variable {marks : List Char} {label other : Phrase marks} {front back rest : Text} {c : Char}

theorem eq_of_text (same : label.text = other.text) : label = other := by
  cases label
  cases other
  cases same
  rfl

instance : DecidableEq (Phrase marks) := fun label other =>
  decidable_of_iff (label.text = other.text) ⟨eq_of_text, congrArg text⟩

theorem head_visible (starts : label.text = c :: rest) : Text.isBlank c = false :=
  (starts ▸ label.trimmed).head_visible

theorem not_mem_marks (parts : label.text = front ++ back) (inside : c ∈ back) : c ∉ marks := by
  intro known
  exact label.free c known (parts ▸ List.mem_append_right front inside)

/-- Where a part at the end of a label begins, a character that can be seen comes first. -/
theorem trimLeft_append (parts : label.text = front ++ back) (nonempty : back ≠ [])
    (rest : Text) :
    ∃ c more, Text.trimLeft (back ++ rest) = c :: more ∧ c ∈ back ∧ c ∉ marks := by
  obtain ⟨c, inside, more, shown⟩ := (parts ▸ label.trimmed).trimLeft_append nonempty rest
  exact ⟨c, more, shown, inside, not_mem_marks parts inside⟩

end Phrase

/-- A piece of a text. -/
inductive Piece (α : Type) where
  | loose (c : Char)
  | label (a : α)

namespace Skeleton

variable {α : Type} {spelling other : α → Label} {pieces : List (Piece α)} {label : Label}
  {text front back rest : Text} {c : Char}

/-- The head of a label is never loose. -/
theorem not_loose_of_head (starts : label.text = c :: rest) : ¬Loose c := by
  intro loose
  rcases loose with blank | mark
  · rw [Phrase.head_visible starts] at blank
    contradiction
  · have parts : label.text = [] ++ c :: rest := starts
    exact Phrase.not_mem_marks parts List.mem_cons_self mark

/-! ### Spelling -/

def spellPiece (spelling : α → Label) : Piece α → Text
  | .loose c => [c]
  | .label a => (spelling a).text

/-- The text of a skeleton. -/
def spell (spelling : α → Label) (pieces : List (Piece α)) : Text :=
  pieces.flatMap (spellPiece spelling)

def loose (text : Text) : List (Piece α) := text.map .loose

@[simp] theorem spell_nil : spell spelling [] = [] := rfl

@[simp] theorem spell_loose_cons :
    spell spelling (.loose c :: pieces) = c :: spell spelling pieces := rfl

@[simp] theorem spell_label_cons (a : α) :
    spell spelling (.label a :: pieces) = (spelling a).text ++ spell spelling pieces := rfl

@[simp] theorem loose_cons : (loose (c :: text) : List (Piece α)) = .loose c :: loose text := rfl

@[simp] theorem loose_append :
    (loose (text ++ rest) : List (Piece α)) = loose text ++ loose rest := List.map_append

@[simp] theorem spell_append (more : List (Piece α)) :
    spell spelling (pieces ++ more) = spell spelling pieces ++ spell spelling more :=
  List.flatMap_append

@[simp] theorem spell_loose : spell spelling (loose text) = text := by
  induction text with
  | nil => rfl
  | cons c rest ih => rw [loose_cons, spell_loose_cons, ih]

/-- The labels of a skeleton in their order. -/
def labels : List (Piece α) → List α
  | [] => []
  | .loose _ :: rest => labels rest
  | .label a :: rest => a :: labels rest

@[simp] theorem labels_loose : labels (loose text : List (Piece α)) = [] := by
  induction text with
  | nil => rfl
  | cons c rest ih => exact ih

@[simp] theorem labels_append (first more : List (Piece α)) :
    labels (first ++ more) = labels first ++ labels more := by
  induction first with
  | nil => rfl
  | cons piece rest ih => cases piece <;> simp [labels, ih]

theorem spell_congr (same : ∀ a ∈ labels pieces, spelling a = other a) :
    spell spelling pieces = spell other pieces := by
  induction pieces with
  | nil => rfl
  | cons piece rest ih =>
    cases piece with
    | loose c => rw [spell_loose_cons, spell_loose_cons, ih same]
    | label a =>
      obtain ⟨here, later⟩ := List.forall_mem_cons.mp same
      rw [spell_label_cons, spell_label_cons, here, ih later]

theorem infix_of_mem_labels {a : α} (member : a ∈ labels pieces) :
    (spelling a).text <:+: spell spelling pieces := by
  induction pieces with
  | nil => contradiction
  | cons piece rest ih =>
    cases piece with
    | loose c => exact List.infix_cons (ih member)
    | label b =>
      rcases List.mem_cons.mp member with same | later
      · rw [same]
        exact (List.prefix_append _ _).isInfix
      · exact (ih later).trans (List.suffix_append _ _).isInfix

/-! ### Labels apart -/

/-- A label may end in front of these pieces. -/
def Closed : List (Piece α) → Prop
  | [] => True
  | .loose c :: rest => c ∈ Place.marks ∨ Closed rest
  | .label _ :: _ => False

/-- Between two labels stands a mark, not only blanks. -/
def Apart : List (Piece α) → Prop
  | [] => True
  | .loose c :: rest => Loose c ∧ Apart rest
  | .label _ :: rest => Closed rest ∧ Apart rest

theorem Apart.of_append {first more : List (Piece α)} (apart : Apart (first ++ more)) :
    Apart more := by
  induction first with
  | nil => exact apart
  | cons piece rest ih => cases piece <;> exact ih apart.2

/-- Where no label may end, another one follows after blanks. -/
theorem closed_or_label (apart : Apart pieces) :
    Closed pieces ∨ ∃ gap a more, pieces = loose gap ++ .label a :: more ∧
      ∀ c ∈ gap, c ∉ Place.marks := by
  induction pieces with
  | nil => exact .inl trivial
  | cons piece rest ih =>
    cases piece with
    | label a => exact .inr ⟨[], a, rest, rfl, nofun⟩
    | loose c =>
      by_cases mark : c ∈ Place.marks
      · exact .inl (.inl mark)
      · rcases ih apart.2 with closed | ⟨gap, a, more, same, plain⟩
        · exact .inl (.inr closed)
        · refine .inr ⟨c :: gap, a, more, by rw [same]; rfl, ?_⟩
          exact List.forall_mem_cons.mpr ⟨mark, plain⟩

/-- Every text has a skeleton with its labels apart. -/
theorem exists_pieces (text : Text) :
    ∃ pieces : List (Piece Label), Apart pieces ∧ spell id pieces = text := by
  induction text with
  | nil => exact ⟨[], trivial, rfl⟩
  | cons c rest ih =>
    obtain ⟨pieces, apart, same⟩ := ih
    by_cases loose : Loose c
    · exact ⟨.loose c :: pieces, ⟨loose, apart⟩, congrArg (c :: ·) same⟩
    · have visible : Text.isBlank c = false := Bool.eq_false_iff.mpr fun blank => loose (.inl blank)
      have plain : c ∉ Place.marks := fun mark => loose (.inr mark)
      rcases closed_or_label apart with closed | ⟨gap, label, more, rfl, free⟩
      · -- The character is a label of its own.
        refine ⟨.label ⟨[c], List.cons_ne_nil c [], Text.trimmed_singleton visible, ?_⟩ :: pieces,
          ⟨closed, apart⟩, congrArg (c :: ·) same⟩
        intro mark known inside
        exact plain (List.mem_singleton.mp inside ▸ known)
      · -- The character goes on to the label behind it.
        have trimmed : Text.Trimmed ([c] ++ gap ++ label.text) :=
          (Text.trimmed_singleton visible).append label.trimmed (List.cons_ne_nil c [])
            label.nonempty gap
        refine ⟨.label ⟨[c] ++ gap ++ label.text, by simp, trimmed, ?_⟩ :: more,
          apart.of_append, ?_⟩
        · intro mark known inside
          rcases List.mem_append.mp inside with before | within
          · rcases List.mem_cons.mp before with rfl | between
            · exact plain known
            · exact free mark between known
          · exact label.free mark known within
        · rw [← same]
          simp

/-- The same pieces, their labels numbered. -/
def number (start : Nat) : List (Piece α) → List (Piece Nat)
  | [] => []
  | .loose c :: rest => .loose c :: number start rest
  | .label _ :: rest => .label start :: number (start + 1) rest

theorem labels_number (start : Nat) :
    labels (number start pieces) = List.range' start (labels pieces).length := by
  induction pieces generalizing start with
  | nil => rfl
  | cons piece rest ih =>
    cases piece with
    | loose c => exact ih start
    | label a => exact congrArg (start :: ·) (ih (start + 1))

theorem closed_number (start : Nat) (closed : Closed pieces) : Closed (number start pieces) := by
  induction pieces generalizing start with
  | nil => exact closed
  | cons piece rest ih =>
    cases piece with
    | loose c => exact closed.imp_right (ih start)
    | label a => exact closed

theorem apart_number (start : Nat) (apart : Apart pieces) : Apart (number start pieces) := by
  induction pieces generalizing start with
  | nil => exact apart
  | cons piece rest ih =>
    cases piece with
    | loose c => exact ⟨apart.1, ih start apart.2⟩
    | label a => exact ⟨closed_number (start + 1) apart.1, ih (start + 1) apart.2⟩

theorem spell_number (start : Nat) {numbered : Nat → Label}
    (known : ∀ i a, (labels pieces)[i]? = some a → numbered (start + i) = spelling a) :
    spell numbered (number start pieces) = spell spelling pieces := by
  induction pieces generalizing start with
  | nil => rfl
  | cons piece rest ih =>
    cases piece with
    | loose c => exact congrArg (c :: ·) (ih start known)
    | label a =>
      have first : numbered start = spelling a := known 0 a rfl
      have later : ∀ i b, (labels rest)[i]? = some b → numbered (start + 1 + i) = spelling b := by
        intro i b found
        rw [Nat.add_assoc, Nat.add_comm 1 i]
        exact known (i + 1) b found
      rw [number, spell_label_cons, spell_label_cons, first, ih (start + 1) later]

/-- Every text has a skeleton whose labels have numbers of their own. A number without a label is
spelled as is asked for. -/
theorem exists_skeleton (text : Text) (standard : Label) :
    ∃ (pieces : List (Piece Nat)) (spelling : Nat → Label), Apart pieces ∧
      (labels pieces).Nodup ∧ spell spelling pieces = text ∧
      ∀ i, spelling i = standard ∨ (spelling i).text <:+: text := by
  obtain ⟨pieces, apart, same⟩ := exists_pieces text
  refine ⟨number 0 pieces, fun i => (labels pieces)[i]?.getD standard, apart_number 0 apart, ?_, ?_,
    ?_⟩
  · rw [labels_number]
    exact List.nodup_range'
  · rw [← same]
    apply spell_number
    intro i label found
    rw [Nat.zero_add, found]
    rfl
  · intro i
    dsimp only
    cases found : (labels pieces)[i]? with
    | none => exact .inl rfl
    | some label =>
      have inside : label.text <:+: spell id pieces :=
        @infix_of_mem_labels Label id pieces label (List.mem_of_getElem? found)
      exact .inr (same ▸ inside)

/-! ### Finding pieces in a text -/

/-- Loose characters in front of a text are pieces of its skeleton. -/
theorem split_loose (gap : ∀ c ∈ front, Loose c) (same : spell spelling pieces = front ++ rest) :
    ∃ more, pieces = loose front ++ more ∧ spell spelling more = rest := by
  induction front generalizing pieces with
  | nil => exact ⟨pieces, rfl, same⟩
  | cons c front ih =>
    obtain ⟨here, later⟩ := List.forall_mem_cons.mp gap
    cases pieces with
    | nil => contradiction
    | cons piece others =>
      cases piece with
      | loose d =>
        rw [spell_loose_cons, List.cons_append] at same
        obtain ⟨rfl, tails⟩ := List.cons.inj same
        obtain ⟨more, rfl, spelled⟩ := ih later tails
        exact ⟨more, rfl, spelled⟩
      | label a =>
        obtain ⟨d, text, starts⟩ := List.exists_cons_of_ne_nil (spelling a).nonempty
        rw [spell_label_cons, starts, List.cons_append, List.cons_append] at same
        rw [(List.cons.inj same).1] at starts
        exact absurd here (not_loose_of_head starts)

/-- A mark in a text is a piece of its skeleton. -/
theorem split_mark (mark : c ∈ Place.marks) (same : spell spelling pieces = front ++ c :: rest) :
    ∃ before more, pieces = before ++ .loose c :: more ∧ spell spelling before = front ∧
      spell spelling more = rest := by
  induction pieces generalizing front with
  | nil => simp at same
  | cons piece others ih =>
    cases piece with
    | loose d =>
      cases front with
      | nil =>
        obtain ⟨rfl, tails⟩ := List.cons.inj same
        exact ⟨[], others, rfl, rfl, tails⟩
      | cons e front =>
        obtain ⟨rfl, tails⟩ := List.cons.inj same
        obtain ⟨before, more, rfl, spelled, behind⟩ := ih tails
        exact ⟨.loose d :: before, more, rfl, congrArg (d :: ·) spelled, behind⟩
    | label a =>
      rw [spell_label_cons] at same
      rcases Cut.append_cases same with ⟨mid, rfl, tails⟩ | ⟨mid, shown, whole, tails⟩
      · obtain ⟨before, more, rfl, spelled, behind⟩ := ih tails
        exact ⟨.label a :: before, more, rfl, by rw [spell_label_cons, spelled], behind⟩
      · obtain ⟨d, mid, rfl⟩ := List.exists_cons_of_ne_nil shown
        rw [List.cons_append] at tails
        rw [← (List.cons.inj tails).1] at whole
        exact absurd mark (Phrase.not_mem_marks whole List.mem_cons_self)

/-- A text that does not go on with the end of a label. -/
def Bounded (text : Text) : Prop :=
  ∀ (label : Label) (front back rest : Text), label.text = front ++ back → back ≠ [] →
    text ≠ back ++ rest

/-- A label does not go on where another one may end. -/
theorem Closed.bounded (closed : Closed pieces) (apart : Apart pieces) :
    Bounded (spell spelling pieces) := by
  intro label front back rest parts nonempty same
  induction pieces generalizing front back with
  | nil => exact nonempty (List.append_eq_nil_iff.mp same.symm).1
  | cons piece others ih =>
    cases piece with
    | label a => exact closed
    | loose c =>
      obtain ⟨d, back, rfl⟩ := List.exists_cons_of_ne_nil nonempty
      rw [spell_loose_cons, List.cons_append] at same
      obtain ⟨rfl, tails⟩ := List.cons.inj same
      have plain : c ∉ Place.marks := Phrase.not_mem_marks parts List.mem_cons_self
      cases back with
      | nil =>
        -- The label would end with this character, which is loose.
        have blank : Text.isBlank c = true := apart.1.resolve_right plain
        have visible := (parts ▸ label.trimmed).getLast_visible (by simp)
        rw [List.getLast_append_of_right_ne_nil _ _ (List.cons_ne_nil c []),
          List.getLast_singleton, blank] at visible
        contradiction
      | cons e back =>
        refine ih (closed.resolve_left plain) apart.2 (front ++ [c]) (e :: back) ?_
          (List.cons_ne_nil e back) tails
        rw [parts, List.append_assoc, List.singleton_append]

/-- A label behind loose characters is a label of the skeleton. -/
theorem split_label (apart : Apart pieces) (gap : ∀ c ∈ front, Loose c) (bounded : Bounded rest)
    (same : spell spelling pieces = front ++ (label.text ++ rest)) :
    ∃ a more, pieces = loose front ++ .label a :: more ∧ spelling a = label ∧
      spell spelling more = rest := by
  obtain ⟨others, rfl, spelled⟩ := split_loose gap same
  obtain ⟨d, text, starts⟩ := List.exists_cons_of_ne_nil label.nonempty
  have apart := apart.of_append
  cases others with
  | nil =>
    rw [starts] at spelled
    contradiction
  | cons piece more =>
    cases piece with
    | loose c =>
      rw [starts, spell_loose_cons, List.cons_append] at spelled
      rw [← (List.cons.inj spelled).1] at starts
      exact absurd apart.1 (not_loose_of_head starts)
    | label a =>
      rw [spell_label_cons] at spelled
      rcases Cut.append_cases spelled with ⟨mid, whole, tails⟩ | ⟨mid, shown, whole, tails⟩
      · cases mid with
        | nil =>
          have known : label = spelling a := Phrase.eq_of_text (by simpa using whole)
          exact ⟨a, more, rfl, known.symm, by simpa using tails⟩
        | cons c mid =>
          exact absurd tails (apart.1.bounded apart.2 label _ _ _ whole (List.cons_ne_nil c mid))
      · exact absurd tails (bounded (spelling a) _ _ _ whole shown)

end Skeleton

end Flowchart
