import Flowchart.Proofs.Draft.Basic
import Flowchart.Proofs.Ident.Words

/-!
Labels that share their identifier. An identifier can be had by substitutions alone: underscores in
place of all that is no letter and no digit, one for each run of them, and none at the ends. It
tells the words of its label, except that a keyword and the same word behind the mark that sets
keywords apart become one.
-/
namespace Flowchart.Ident

variable {text label : Text} {runs : List Text} {c : Char}

/-! ### Identifiers by substitution -/

/-- An underscore in place of everything but letters and digits. -/
def underscored (label : Text) : Text := label.map fun c => if c.isAlphanum then c else '_'

/-- One underscore in place of each run of them. -/
def squeezed : Text → Text
  | [] => []
  | c :: rest => if c = '_' ∧ rest.head? = some '_' then squeezed rest else c :: squeezed rest

def withoutFirst (text : Text) : Text := if text.head? = some '_' then text.tail else text

def withoutLast (text : Text) : Text := if text.getLast? = some '_' then text.dropLast else text

/-- An underscore less at each end. -/
def bare (text : Text) : Text := withoutLast (withoutFirst text)

theorem underscored_append (front back : Text) :
    underscored (front ++ back) = underscored front ++ underscored back := List.map_append

theorem underscored_of_letters (letters : ∀ c ∈ text, c.isAlphanum = true) :
    underscored text = text := by
  have same : underscored text = text.map id :=
    List.map_congr_left fun c member => if_pos (letters c member)
  rw [same, List.map_id]

theorem squeezed_append {front back : Text} (free : '_' ∉ front) :
    squeezed (front ++ back) = front ++ squeezed back := by
  induction front with
  | nil => rfl
  | cons c front ih =>
    obtain ⟨other, later⟩ := not_or.mp (mt List.mem_cons.mpr free)
    rw [List.cons_append, squeezed, if_neg fun both => other both.1.symm, ih later]
    rfl

theorem squeezed_gap {gap : Text} (free : ∀ c ∈ gap, c.isAlphanum = false) (nonempty : gap ≠ [])
    (back : Text) (ends : back.head? ≠ some '_') :
    squeezed (underscored gap ++ back) = '_' :: squeezed back := by
  induction gap with
  | nil => exact absurd rfl nonempty
  | cons c gap ih =>
    obtain ⟨other, later⟩ := List.forall_mem_cons.mp free
    have first : underscored (c :: gap) = '_' :: underscored gap := by simp [underscored, other]
    rw [first, List.cons_append, squeezed]
    cases gap with
    | nil =>
      rw [if_neg fun both => ends both.2]
      rfl
    | cons d gap =>
      have next : underscored (d :: gap) = '_' :: underscored gap := by
        simp [underscored, later d List.mem_cons_self]
      rw [if_pos ⟨rfl, by rw [next]; rfl⟩]
      exact ih later (List.cons_ne_nil d gap)

/-! ### Runs between underscores -/

theorem not_mem_of_letters (letters : ∀ c ∈ text, c.isAlphanum = true) : '_' ∉ text := by
  intro member
  exact absurd (letters '_' member) (by decide)

theorem Runs.proper (falls : Runs text runs) : ∀ run ∈ runs, run ≠ [] ∧ '_' ∉ run := by
  induction falls with
  | gap => exact List.forall_mem_nil _
  | run _ nonempty letters _ _ ih =>
    exact List.forall_mem_cons.mpr ⟨⟨nonempty, not_mem_of_letters letters⟩, ih⟩

theorem Runs.ne_nil (falls : Runs text runs) (some : runs ≠ []) : text ≠ [] := by
  cases falls with
  | gap => contradiction
  | run _ nonempty => simp [nonempty]

/-- The runs with an underscore between each two of them, and one for each gap at an end. -/
theorem exists_squeezed (falls : Runs text runs) :
    ∃ lead trail, squeezed (underscored text) = lead ++ (['_'].intercalate runs ++ trail) ∧
      (lead = [] ∨ lead = ['_']) ∧ (trail = [] ∨ trail = ['_']) ∧ (runs = [] → trail = []) ∧
      ∀ c ∈ text.head?, c.isAlphanum = false → lead = ['_'] := by
  induction falls with
  | @gap gap free =>
    cases gap with
    | nil => exact ⟨[], [], rfl, .inl rfl, .inl rfl, fun _ => rfl, nofun⟩
    | cons c gap =>
      have one := squeezed_gap free (List.cons_ne_nil c gap) [] nofun
      rw [List.append_nil] at one
      exact ⟨['_'], [], one, .inr rfl, .inl rfl, fun _ => rfl, fun _ _ _ => rfl⟩
  | @run gap run rest runs free nonempty letters ends later ih =>
    obtain ⟨lead, trail, parts, opens, closes, bounded, starts⟩ := ih
    have inner : squeezed (underscored (run ++ rest)) = run ++ squeezed (underscored rest) := by
      rw [underscored_append, underscored_of_letters letters,
        squeezed_append (not_mem_of_letters letters)]
    -- What comes before the next run stands between the runs, or behind the last one.
    obtain ⟨after, joined, closed⟩ : ∃ after,
        squeezed (underscored (run ++ rest)) = ['_'].intercalate (run :: runs) ++ after ∧
          (after = [] ∨ after = ['_']) := by
      cases runs with
      | nil =>
        refine ⟨lead, ?_, opens⟩
        rw [inner, parts, bounded rfl]
        simp
      | cons next more =>
        obtain ⟨c, others, rfl⟩ :=
          List.exists_cons_of_ne_nil (later.ne_nil (List.cons_ne_nil next more))
        refine ⟨trail, ?_, closes⟩
        rw [inner, parts, starts c rfl (ends c rfl), List.intercalate_cons_cons]
        simp
    cases gap with
    | nil =>
      refine ⟨[], after, joined, .inl rfl, closed, nofun, fun c first other => ?_⟩
      obtain ⟨d, more, rfl⟩ := List.exists_cons_of_ne_nil nonempty
      have letter := letters d List.mem_cons_self
      rw [Option.some.inj first, other] at letter
      exact absurd letter Bool.false_ne_true
    | cons c gap =>
      have head : (underscored (run ++ rest)).head? ≠ some '_' := by
        obtain ⟨d, more, rfl⟩ := List.exists_cons_of_ne_nil nonempty
        rw [underscored_append, underscored_of_letters letters]
        intro first
        exact absurd (letters '_' (Option.some.inj first ▸ List.mem_cons_self)) (by decide)
      refine ⟨['_'], after, ?_, .inr rfl, closed, nofun, fun _ _ _ => rfl⟩
      rw [underscored_append, squeezed_gap free (List.cons_ne_nil c gap) _ head, joined]
      rfl

theorem bare_around {lead body trail : Text} (first : body.head? ≠ some '_')
    (last : body.getLast? ≠ some '_') (opens : lead = [] ∨ lead = ['_'])
    (closes : trail = [] ∨ trail = ['_']) (bounded : body = [] → trail = []) :
    bare (lead ++ (body ++ trail)) = body := by
  have behind : withoutFirst (lead ++ (body ++ trail)) = body ++ trail := by
    rcases opens with rfl | rfl
    · cases body with
      | nil =>
        rw [bounded rfl]
        rfl
      | cons c body => exact if_neg first
    · rfl
  rw [bare, behind, withoutLast]
  rcases closes with rfl | rfl
  · rw [List.append_nil, if_neg last]
  · rw [List.getLast?_concat, if_pos rfl, List.dropLast_concat]

theorem head_intercalate (proper : ∀ run ∈ runs, run ≠ [] ∧ '_' ∉ run) :
    (['_'].intercalate runs).head? ≠ some '_' := by
  cases runs with
  | nil => nofun
  | cons run rest =>
    obtain ⟨filled, free⟩ := proper run List.mem_cons_self
    obtain ⟨c, more, rfl⟩ := List.exists_cons_of_ne_nil filled
    intro first
    rw [List.intercalate_cons_cons_left] at first
    exact free (Option.some.inj first ▸ List.mem_cons_self)

theorem getLast_intercalate (proper : ∀ run ∈ runs, run ≠ [] ∧ '_' ∉ run) :
    (['_'].intercalate runs).getLast? ≠ some '_' := by
  induction runs with
  | nil => nofun
  | cons run rest ih =>
    obtain ⟨⟨filled, free⟩, later⟩ := List.forall_mem_cons.mp proper
    cases rest with
    | nil =>
      intro last
      rw [List.intercalate_singleton] at last
      exact free (List.mem_of_getLast? last)
    | cons next more =>
      have filled : ['_'].intercalate (next :: more) ≠ [] := by
        obtain ⟨c, others, rfl⟩ := List.exists_cons_of_ne_nil (later next List.mem_cons_self).1
        rw [List.intercalate_cons_cons_left]
        exact List.cons_ne_nil _ _
      rw [List.intercalate_cons_cons, List.getLast?_append_of_ne_nil _ filled]
      exact ih later

theorem map_intercalate (runs : List Text) : (['_'].intercalate runs).map Char.toLower =
    ['_'].intercalate (runs.map (·.map Char.toLower)) := by
  induction runs with
  | nil => rfl
  | cons run rest ih =>
    cases rest with
    | nil => simp
    | cons next more =>
      rw [List.intercalate_cons_cons, List.map_append, List.map_append, ih]
      simp [List.intercalate_cons_cons]

/-- Substituting leads to the same identifier. -/
theorem ofLabel_eq_substituted (label : Text) :
    ofLabel label = escape ((bare (squeezed (underscored label))).map Char.toLower) := by
  obtain ⟨runs, falls⟩ := exists_runs label
  obtain ⟨lead, trail, parts, opens, closes, bounded, _⟩ := exists_squeezed falls
  have proper := falls.proper
  have empty : ['_'].intercalate runs = [] → trail = [] := by
    intro nothing
    cases runs with
    | nil => exact bounded rfl
    | cons run rest =>
      obtain ⟨c, more, rfl⟩ := List.exists_cons_of_ne_nil (proper run List.mem_cons_self).1
      rw [List.intercalate_cons_cons_left] at nothing
      contradiction
  rw [parts, bare_around (head_intercalate proper) (getLast_intercalate proper) opens closes empty,
    map_intercalate, ← falls.words_eq]
  rfl

/-! ### Labels that share an identifier -/

/-- Labels share their identifier exactly if they have the same words, or if one of them is a
keyword and the other one the same word behind the mark of keywords. -/
theorem ofLabel_eq_iff (label other : Text) :
    (∃ runs, Runs label runs ∧ words label = runs.map (·.map Char.toLower)) ∧
      ofLabel label = escape ((bare (squeezed (underscored label))).map Char.toLower) ∧
      (ofLabel label = ofLabel other ↔ words label = words other ∨
        ∃ word ∈ reserved, words label = [word] ∧ words other = ["node".toList, word] ∨
          words label = ["node".toList, word] ∧ words other = [word]) ∧
      (ofLabel label = [] ↔ ∀ c ∈ label, c.isAlphanum = false) ∧
      ofLabel (Text.stripQuotes label) = ofLabel label ∧
      ∀ front back : Draft.Quoting, ofLabel (front.mark ++ label ++ back.mark) = ofLabel label := by
  refine ⟨?_, ofLabel_eq_substituted label, ?_, ofLabel_eq_nil,
    ofLabel_congr (words_stripQuotes label), ?_⟩
  · obtain ⟨runs, falls⟩ := exists_runs label
    exact ⟨runs, falls, falls.words_eq⟩
  · rw [ofLabel, ofLabel, escape_eq_iff, plain_eq_iff]
    refine or_congr_right (exists_congr fun word => and_congr_right fun keyword => ?_)
    rw [plain_eq_reserved_iff keyword, plain_eq_reserved_iff keyword, plain_eq_apart_iff keyword,
      plain_eq_apart_iff keyword]
    rfl
  · intro front back
    have gap (quoting : Draft.Quoting) : ∀ c ∈ quoting.mark, c.isAlphanum = false := by
      cases quoting with
      | bare => exact List.forall_mem_nil _
      | double | single => exact List.forall_mem_singleton.mpr rfl
    apply ofLabel_congr
    rw [words_append_gap _ (gap back), words_gap_append (gap front)]

/-- A keyword and the label that it is renamed to. -/
example : ofLabel "'End'".toList = ofLabel "NODE: end!".toList := by decide

end Flowchart.Ident
