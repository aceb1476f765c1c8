import Flowchart.Proofs.Rename
import Flowchart.Proofs.Rename.Skeleton
import Mathlib.Data.List.Forall2

/-!
Places look at loose characters only. What stands around a label is blanks and marks, so whether a
label stands at a place, and what belongs to the place around it, can be told from the skeleton of
the text alone.
-/
namespace Flowchart

namespace Text

/-- Texts that begin with the same loose characters, up to their ends or to a label in both. -/
inductive Alike : Text → Text → Prop
  | nil : Alike [] []
  | label {c d : Char} (here : ¬Place.Loose c) (there : ¬Place.Loose d) (text other : Text) :
    Alike (c :: text) (d :: other)
  | loose {c : Char} (here : Place.Loose c) {text other : Text} (rest : Alike text other) :
    Alike (c :: text) (c :: other)

namespace Alike

variable {text other : Text}

theorem blank_eq_false {c : Char} (here : ¬Place.Loose c) : isBlank c = false :=
  Bool.eq_false_iff.mpr fun blank => here (.inl blank)

theorem indent_eq (alike : Alike text other) : indent text = indent other := by
  induction alike with
  | nil => rfl
  | label here there text other => simp [indent, blank_eq_false here, blank_eq_false there]
  | @loose c here text other rest ih =>
    have later : text.takeWhile isBlank = other.takeWhile isBlank := ih
    cases blank : isBlank c <;> simp [indent, blank, later]

theorem trimLeft (alike : Alike text other) : Alike (trimLeft text) (trimLeft other) := by
  induction alike with
  | nil => exact .nil
  | label here there text other =>
    rw [trimLeft_cons_of_visible text (blank_eq_false here),
      trimLeft_cons_of_visible other (blank_eq_false there)]
    exact .label here there text other
  | @loose c here text other rest ih =>
    cases blank : isBlank c with
    | false =>
      rw [trimLeft_cons_of_visible text blank, trimLeft_cons_of_visible other blank]
      exact .loose here rest
    | true => simpa [Text.trimLeft, blank] using ih

theorem eq_nil_iff (alike : Alike text other) : text = [] ↔ other = [] := by
  cases alike <;> simp

/-- Texts without anything but blanks are alike only if they are equal. -/
theorem eq_of_blank (alike : Alike text other) (blank : Text.trimLeft text = []) :
    text = other := by
  have also : Text.trimLeft other = [] := alike.trimLeft.eq_nil_iff.mp blank
  rw [← indent_append_trimLeft text, ← indent_append_trimLeft other, alike.indent_eq, blank, also]

end Alike

end Text

namespace Place

variable {text other lead after trail rest : Text} {label : Label} {atStart : Bool}

/-- Cuts that take the same part off texts that go on alike. -/
def SameCut (cut other : Text × Text) : Prop := cut.1 = other.1 ∧ Text.Alike cut.2 other.2

theorem exists_sameCut {cuts others : List (Text × Text)} {cut : Text × Text}
    (each : List.Forall₂ SameCut cuts others) (member : cut ∈ cuts) :
    ∃ other ∈ others, SameCut cut other := by
  induction each with
  | nil => contradiction
  | cons here _ ih =>
    rcases List.mem_cons.mp member with rfl | later
    · exact ⟨_, List.mem_cons_self, here⟩
    · obtain ⟨other, known, same⟩ := ih later
      exact ⟨other, List.mem_cons_of_mem _ known, same⟩

/-- A place that looks at loose characters only and does not begin or end inside a label. -/
structure Blind (place : Place) : Prop extends place.Cuts where
  leadLoose : ∀ {atStart text lead after}, (lead, after) ∈ place.leads atStart text →
    ∀ c ∈ lead, Loose c
  trailLoose : ∀ {text trail rest}, place.trail? text = some (trail, rest) → ∀ c ∈ trail, Loose c
  leadsAlike : ∀ {text other}, Text.Alike text other → ∀ atStart,
    List.Forall₂ SameCut (place.leads atStart text) (place.leads atStart other)
  trailAlike : ∀ {text other}, Text.Alike text other →
    Option.Rel SameCut (place.trail? text) (place.trail? other)
  leadsInside : ∀ {label : Label} {front back : Text} (rest : Text), label.text = front ++ back →
    back ≠ [] → place.leads false (back ++ rest) = []
  trailInside : ∀ {label : Label} {front back : Text} (rest : Text), label.text = front ++ back →
    back ≠ [] → place.trail? (back ++ rest) = none

theorem isArrow_iff {c : Char} : isArrow c = true ↔ c = '>' ∨ c = '<' := by
  simp [isArrow]

theorem mark_of_isArrow {c : Char} (arrow : isArrow c = true) : c ∈ marks := by
  rcases isArrow_iff.mp arrow with rfl | rfl <;> decide

theorem not_isArrow {c : Char} (free : c ∉ marks) : isArrow c = false :=
  Bool.eq_false_iff.mpr fun arrow => free (mark_of_isArrow arrow)

theorem not_mark {c : Char} (visible : ¬Loose c) : c ∉ marks := fun mark => visible (.inr mark)

theorem loose_of_blanks (blanks : Text.Blanks text) : ∀ c ∈ text, Loose c :=
  fun c member => .inl (blanks c member)

theorem loose_of_mem_indent {c : Char} (member : c ∈ Text.indent text) : Loose c :=
  .inl (List.mem_takeWhile_imp member)

/-! ### Cuts behind blanks -/

theorem blanks_of_mem_blankCuts {cut : Text × Text} (member : cut ∈ blankCuts text) :
    Text.Blanks cut.1 := by
  induction text generalizing cut with
  | nil =>
    rw [List.mem_singleton.mp member]
    exact Text.blanks_nil
  | cons c rest ih =>
    rw [blankCuts] at member
    split at member
    · rename_i blank
      rcases List.mem_append.mp member with longer | none
      · obtain ⟨inner, found, rfl⟩ := List.mem_map.mp longer
        exact List.forall_mem_cons.mpr ⟨blank, ih found⟩
      · rw [List.mem_singleton.mp none]
        exact Text.blanks_nil
    · rw [List.mem_singleton.mp member]
      exact Text.blanks_nil

theorem SameCut.cons (c : Char) {cut other : Text × Text} (same : SameCut cut other) :
    SameCut (c :: cut.1, cut.2) (c :: other.1, other.2) :=
  ⟨congrArg (c :: ·) same.1, same.2⟩

theorem blankCuts_alike (alike : Text.Alike text other) :
    List.Forall₂ SameCut (blankCuts text) (blankCuts other) := by
  induction alike with
  | nil => exact .cons ⟨rfl, .nil⟩ .nil
  | label here there text other =>
    simp only [blankCuts, Text.Alike.blank_eq_false here, Text.Alike.blank_eq_false there,
      Bool.false_eq_true, if_false]
    exact .cons ⟨rfl, .label here there text other⟩ .nil
  | @loose c here text other rest ih =>
    rw [blankCuts, blankCuts]
    have whole : List.Forall₂ SameCut [([], c :: text)] [([], c :: other)] :=
      .cons ⟨rfl, .loose here rest⟩ .nil
    split
    · have longer := List.rel_map (fun _ _ same => SameCut.cons c same) ih
      exact List.rel_append longer whole
    · exact whole

theorem startCuts_alike (alike : Text.Alike text other) (atStart : Bool) :
    List.Forall₂ SameCut (if atStart then blankCuts text else [])
      (if atStart then blankCuts other else []) := by
  cases atStart with
  | false => exact .nil
  | true => exact blankCuts_alike alike

theorem loose_of_mem_startCuts {cut : Text × Text}
    (member : cut ∈ if atStart then blankCuts text else []) : ∀ c ∈ cut.1, Loose c := by
  cases atStart with
  | false => contradiction
  | true => exact loose_of_blanks (blanks_of_mem_blankCuts member)

/-! ### What follows a label -/

theorem loose_of_arrow? (found : arrow? text = some (trail, rest)) : ∀ c ∈ trail, Loose c := by
  rw [arrow?] at found
  split at found
  · split at found
    · rename_i arrow
      obtain ⟨rfl, rfl⟩ := Prod.mk.inj (Option.some.inj found)
      exact List.forall_mem_append.mpr ⟨fun c => loose_of_mem_indent,
        List.forall_mem_cons.mpr ⟨.inr (mark_of_isArrow arrow), fun c => loose_of_mem_indent⟩⟩
    · contradiction
  · contradiction

theorem blanks_of_lineEnd? (found : lineEnd? text = some (trail, rest)) : Text.Blanks trail := by
  rw [lineEnd?] at found
  split at found
  · rename_i blank
    obtain ⟨rfl, rfl⟩ := Prod.mk.inj (Option.some.inj found)
    exact List.dropWhile_eq_nil_iff.mp blank
  · exact blanks_of_mem_blankCuts (List.mem_of_find?_eq_some found)

theorem loose_of_markOrEnd? {mark : Char} (known : mark ∈ marks)
    (found : markOrEnd? mark text = some (trail, rest)) : ∀ c ∈ trail, Loose c := by
  rw [markOrEnd?] at found
  split at found
  · split at found
    · obtain ⟨rfl, rfl⟩ := Prod.mk.inj (Option.some.inj found)
      exact List.forall_mem_append.mpr
        ⟨fun c => loose_of_mem_indent, List.forall_mem_singleton.mpr (.inr known)⟩
    · exact loose_of_blanks (blanks_of_lineEnd? found)
  · exact loose_of_blanks (blanks_of_lineEnd? found)

theorem arrow?_alike (alike : Text.Alike text other) :
    Option.Rel SameCut (arrow? text) (arrow? other) := by
  have shown := alike.trimLeft
  rw [arrow?, arrow?, alike.indent_eq]
  generalize Text.trimLeft text = front at shown
  generalize Text.trimLeft other = back at shown
  cases shown with
  | nil => exact .none
  | label here there front back =>
    simp only [not_isArrow (not_mark here), not_isArrow (not_mark there)]
    exact .none
  | @loose c here front back rest =>
    dsimp only
    split
    · rw [rest.indent_eq]
      exact .some ⟨rfl, rest.trimLeft⟩
    · exact .none

theorem find?_alike {p : Text × Text → Bool} {cuts others : List (Text × Text)}
    (same : ∀ cut other, SameCut cut other → p cut = p other)
    (each : List.Forall₂ SameCut cuts others) :
    Option.Rel SameCut (cuts.find? p) (others.find? p) := by
  induction each with
  | nil => exact .none
  | @cons cut other _ _ here _ ih =>
    rw [List.find?_cons, List.find?_cons, same cut other here]
    cases p other with
    | false => exact ih
    | true => exact .some here

theorem lineEnd?_alike (alike : Text.Alike text other) :
    Option.Rel SameCut (lineEnd? text) (lineEnd? other) := by
  have shown := alike.trimLeft
  rw [lineEnd?, lineEnd?]
  by_cases blank : Text.trimLeft text = []
  · rw [alike.eq_of_blank blank, if_pos (alike.eq_of_blank blank ▸ blank)]
    exact .some ⟨rfl, .nil⟩
  · have visible : Text.trimLeft other ≠ [] := mt shown.eq_nil_iff.mpr blank
    rw [if_neg blank, if_neg visible]
    refine find?_alike ?_ (blankCuts_alike alike)
    intro cut other same
    have behind := same.2
    dsimp only
    generalize cut.2 = front at behind
    generalize other.2 = back at behind
    cases behind with
    | nil => rfl
    | loose => rfl
    | @label c d here there =>
      have left : c ≠ '\n' := fun feed => here (.inr (feed ▸ by decide))
      have right : d ≠ '\n' := fun feed => there (.inr (feed ▸ by decide))
      simp [left, right]

theorem markOrEnd?_alike {mark : Char} (known : mark ∈ marks) (alike : Text.Alike text other) :
    Option.Rel SameCut (markOrEnd? mark text) (markOrEnd? mark other) := by
  have shown := alike.trimLeft
  have ends := lineEnd?_alike alike
  rw [markOrEnd?, markOrEnd?, alike.indent_eq]
  generalize Text.trimLeft text = front at shown
  generalize Text.trimLeft other = back at shown
  cases shown with
  | nil => exact ends
  | @label c d here there front back =>
    have left : c ≠ mark := fun same => here (.inr (same ▸ known))
    have right : d ≠ mark := fun same => there (.inr (same ▸ known))
    simp only [left, right, if_false]
    exact ends
  | @loose c here front back rest =>
    dsimp only
    split
    · exact .some ⟨rfl, rest⟩
    · exact ends

/-! ### Inside a label -/

theorem arrow?_inside {front back : Text} (rest : Text) (parts : label.text = front ++ back)
    (nonempty : back ≠ []) : arrow? (back ++ rest) = none := by
  obtain ⟨c, more, shown, _, free⟩ := Phrase.trimLeft_append parts nonempty rest
  rw [arrow?, shown]
  dsimp only
  rw [not_isArrow free]
  rfl

theorem lineEnd?_inside {front back : Text} (rest : Text) (parts : label.text = front ++ back)
    (nonempty : back ≠ []) : lineEnd? (back ++ rest) = none := by
  obtain ⟨c, more, shown, member, _⟩ := Phrase.trimLeft_append parts nonempty rest
  have visible : Text.isBlank c = false := by
    have first := List.head?_dropWhile_not Text.isBlank (back ++ rest)
    rw [← Text.trimLeft, shown] at first
    simpa using first
  rw [lineEnd?, shown, if_neg (List.cons_ne_nil c more), List.find?_eq_none]
  intro cut known feed
  have joined := append_of_mem_blankCuts known
  have blanks := blanks_of_mem_blankCuts known
  obtain ⟨after, starts⟩ : ∃ after, cut.2 = '\n' :: after :=
    List.head?_eq_some_iff.mp (eq_of_beq feed)
  rw [starts] at joined
  -- The cut would be behind a character of the label that can be seen, or the line feed in it.
  rcases Cut.append_cases joined with ⟨mid, longer, _⟩ | ⟨mid, shown, shorter, tails⟩
  · have spaced := blanks c (longer ▸ List.mem_append_left mid member)
    rw [visible] at spaced
    contradiction
  · obtain ⟨d, mid, rfl⟩ := List.exists_cons_of_ne_nil shown
    rw [List.cons_append] at tails
    have inside : '\n' ∈ back := by
      rw [shorter, ← (List.cons.inj tails).1]
      exact List.mem_append_right cut.1 List.mem_cons_self
    exact Phrase.not_mem_marks parts inside (by decide)

theorem markOrEnd?_inside {mark : Char} (known : mark ∈ marks) {front back : Text} (rest : Text)
    (parts : label.text = front ++ back) (nonempty : back ≠ []) :
    markOrEnd? mark (back ++ rest) = none := by
  obtain ⟨c, more, shown, _, free⟩ := Phrase.trimLeft_append parts nonempty rest
  rw [markOrEnd?, shown]
  dsimp only
  rw [if_neg (ne_of_mem_of_not_mem known free).symm]
  exact lineEnd?_inside rest parts nonempty

/-! ### The three places -/

theorem declaration_blind : declaration.Blind where
  toCuts := declaration_cuts
  leadLoose := loose_of_mem_startCuts
  trailLoose := loose_of_markOrEnd? (by decide)
  leadsAlike := startCuts_alike
  trailAlike := markOrEnd?_alike (by decide)
  leadsInside _ _ _ := rfl
  trailInside := markOrEnd?_inside (by decide)

theorem leftOperand_blind : leftOperand.Blind where
  toCuts := leftOperand_cuts
  leadLoose {atStart text lead after} member := by
    rcases List.mem_append.mp member with start | arrow
    · exact loose_of_mem_startCuts start
    · split at arrow
      · split at arrow
        · rename_i mark
          obtain ⟨cut, found, same⟩ := List.mem_map.mp arrow
          obtain ⟨rfl, rfl⟩ := Prod.mk.inj same
          have blanks := blanks_of_mem_blankCuts (List.mem_filter.mp found).1
          exact List.forall_mem_cons.mpr ⟨.inr (mark_of_isArrow mark), loose_of_blanks blanks⟩
        · contradiction
      · contradiction
  trailLoose := loose_of_arrow?
  leadsAlike {text other} alike atStart := by
    refine List.rel_append (startCuts_alike alike atStart) ?_
    cases alike with
    | nil => exact .nil
    | label here there text other =>
      simp only [not_isArrow (not_mark here), not_isArrow (not_mark there)]
      exact .nil
    | @loose c here text other rest =>
      dsimp only
      split
      · refine List.rel_map (fun _ _ same => SameCut.cons c same) ?_
        refine List.rel_filter (fun cut other (same : SameCut cut other) => ?_)
          (blankCuts_alike rest)
        simp [same.1]
      · exact .nil
  trailAlike := arrow?_alike
  leadsInside {label front back} rest parts nonempty := by
    obtain ⟨c, more, rfl⟩ := List.exists_cons_of_ne_nil nonempty
    have free : c ∉ marks := Phrase.not_mem_marks parts List.mem_cons_self
    simp [leftOperand, not_isArrow free]
  trailInside := arrow?_inside

theorem rightOperand_blind : rightOperand.Blind where
  toCuts := rightOperand_cuts
  leadLoose {atStart text lead after} member := by
    simp only [rightOperand] at member
    split at member
    · split at member
      · rename_i mark
        obtain ⟨cut, found, same⟩ := List.mem_map.mp member
        obtain ⟨rfl, rfl⟩ := Prod.mk.inj same
        have behind := loose_of_blanks (blanks_of_mem_blankCuts found)
        exact List.forall_mem_append.mpr ⟨fun c => loose_of_mem_indent,
          List.forall_mem_cons.mpr ⟨.inr (mark_of_isArrow mark), behind⟩⟩
      · contradiction
    · contradiction
  trailLoose := loose_of_markOrEnd? (by decide)
  leadsAlike {text other} alike atStart := by
    have shown := alike.trimLeft
    simp only [rightOperand, alike.indent_eq]
    generalize Text.trimLeft text = front at shown
    generalize Text.trimLeft other = back at shown
    cases shown with
    | nil => exact .nil
    | label here there front back =>
      simp only [not_isArrow (not_mark here), not_isArrow (not_mark there)]
      exact .nil
    | @loose c here front back rest =>
      dsimp only
      split
      · refine List.rel_map (fun cut other (same : SameCut cut other) => ?_) (blankCuts_alike rest)
        exact ⟨by rw [same.1], same.2⟩
      · exact .nil
  trailAlike := markOrEnd?_alike (by decide)
  leadsInside {label front back} rest parts nonempty := by
    obtain ⟨c, more, shown, _, free⟩ := Phrase.trimLeft_append parts nonempty rest
    simp [rightOperand, shown, not_isArrow free]
  trailInside := markOrEnd?_inside (by decide)

end Place

end Flowchart
