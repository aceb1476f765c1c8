import Flowchart.Proofs.Rename.Context

/-!
What renaming touches. A trace of a text keeps the labels that the passes hit, each with the number
of its pass, and writes out everything else. The source, what each pass leaves and the result are
spellings of one trace: a label that was hit is new from then on, and no later pass hits anything
but labels of the source.
-/
namespace Flowchart

open Place (Label)

namespace Skeleton

variable {α : Type} {spelling : α → Label} {pieces front back : List (Piece α)} {old new : Label}
  {k : α} {marks : List Char}

section Passes

variable [DecidableEq α] {places : List Place} {before after : α → Label}

/-- Which pass hits a label. -/
structure Tagging (old new : Label) (places : List Place) (before : α → Label)
    (pieces : List (Piece α)) (tag : α → Option Nat) : Prop where
  stages : ∀ n, (places.take n).foldl (fun text place => place.replace old.text new.text true text)
    (spell before pieces) =
      spell (fun k => if ∃ pass ∈ tag k, pass < n then new else before k) pieces
  hit : ∀ k, ∀ pass ∈ tag k, pass < places.length ∧ before k = old ∧
    ∃ front back, pieces = front ++ .label k :: back ∧ Opens ('\n' :: Place.openers) front ∧
      Closes ('\n' :: Place.closers) back

theorem exists_tagging (passes : Passes old new pieces places before after)
    (known : ∀ place ∈ places, place ∈ Place.inOrder) (apart : Apart pieces)
    (distinct : (labels pieces).Nodup) : ∃ tag, Tagging old new places before pieces tag := by
  induction passes with
  | nil =>
    refine ⟨fun _ => none, fun n => ?_, fun _ _ tagged => absurd tagged (Option.not_mem_none _)⟩
    simp
  | @cons place places before after hits scan later ih =>
    obtain ⟨here, others⟩ := List.forall_mem_cons.mp known
    obtain ⟨tag, stages, hit⟩ := ih others
    refine ⟨fun k => if k ∈ hits then some 0 else (tag k).map (· + 1), fun n => ?_, ?_⟩
    · cases n with
      | zero => simp
      | succ n =>
        rw [List.take_succ_cons, List.foldl_cons,
          scan.replace (Place.inOrder_blind place here) apart distinct new, stages]
        refine spell_congr fun k _ => ?_
        by_cases member : k ∈ hits <;> simp [member, relabel]
    · intro k pass tagged
      by_cases member : k ∈ hits
      · rw [if_pos member] at tagged
        obtain rfl := Option.some.inj tagged
        exact ⟨Nat.succ_pos _, scan.named k member, scan.context here member⟩
      · rw [if_neg member] at tagged
        obtain ⟨earlier, found, rfl⟩ := Option.map_eq_some_iff.mp tagged
        obtain ⟨bound, named, context⟩ := hit k earlier found
        rw [relabel_eq before hits new member] at named
        exact ⟨Nat.succ_lt_succ bound, named, context⟩

end Passes

/-! ### Traces -/

section Trace

variable {tag : α → Option Nat} {trace : List (Piece Nat)} {pass : Nat}

/-- The pieces with what the passes leave alone written out, and the others with their passes. -/
def traced (tag : α → Option Nat) (spelling : α → Label) (pieces : List (Piece α)) :
    List (Piece Nat) :=
  pieces.flatMap fun
    | .loose c => [.loose c]
    | .label k => (tag k).elim (loose (spelling k).text) fun pass => [.label pass]

@[simp] theorem traced_append (more : List (Piece α)) :
    traced tag spelling (pieces ++ more) = traced tag spelling pieces ++ traced tag spelling more :=
  List.flatMap_append

@[simp] theorem traced_loose_cons (c : Char) :
    traced tag spelling (.loose c :: pieces) = .loose c :: traced tag spelling pieces := rfl

@[simp] theorem traced_loose (text : Text) : traced tag spelling (loose text) = loose text := by
  induction text with
  | nil => rfl
  | cons c rest ih => rw [loose_cons, traced_loose_cons, ih, loose_cons]

theorem traced_label_cons : traced tag spelling (.label k :: pieces) =
    (tag k).elim (loose (spelling k).text) (fun pass => [.label pass]) ++
      traced tag spelling pieces := rfl

theorem spell_traced (shown : Nat → Label) : spell shown (traced tag spelling pieces) =
    spell (fun k => (tag k).elim (spelling k) shown) pieces := by
  induction pieces with
  | nil => rfl
  | cons piece rest ih =>
    cases piece with
    | loose c => rw [traced_loose_cons, spell_loose_cons, spell_loose_cons, ih]
    | label k =>
      rw [traced_label_cons, spell_append, spell_label_cons, ih]
      cases tag k with
      | none => rw [Option.elim_none, Option.elim_none, spell_loose]
      | some pass => simp

/-- A label of the trace is one that the passes hit. -/
theorem exists_of_traced {front back : List (Piece Nat)}
    (parts : traced tag spelling pieces = front ++ .label pass :: back) :
    ∃ before k after, pieces = before ++ .label k :: after ∧ pass ∈ tag k ∧
      front = traced tag spelling before ∧ back = traced tag spelling after := by
  induction pieces generalizing front with
  | nil => simp [traced] at parts
  | cons piece rest ih =>
    cases piece with
    | loose c =>
      rw [traced_loose_cons] at parts
      cases front with
      | nil => cases parts
      | cons first front =>
        obtain ⟨rfl, tails⟩ := List.cons.inj parts
        obtain ⟨before, k, after, rfl, tagged, rfl, rfl⟩ := ih tails
        exact ⟨.loose c :: before, k, after, rfl, tagged, rfl, rfl⟩
    | label k =>
      rw [traced_label_cons] at parts
      cases tagged : tag k with
      | none =>
        rw [tagged, Option.elim_none] at parts
        rcases Cut.append_cases parts with ⟨mid, rfl, tails⟩ | ⟨mid, filled, inner, tails⟩
        · obtain ⟨before, j, after, rfl, known, rfl, rfl⟩ := ih tails
          refine ⟨.label k :: before, j, after, rfl, known, ?_, rfl⟩
          rw [traced_label_cons, tagged, Option.elim_none]
        · -- What is left alone holds no label.
          obtain ⟨_, later, _, _, rfl⟩ := loose_eq_append inner
          cases later with
          | nil => exact absurd rfl filled
          | cons c later => cases tails
      | some other =>
        rw [tagged, Option.elim_some] at parts
        cases front with
        | nil =>
          cases parts
          exact ⟨[], k, rest, rfl, tagged, rfl, rfl⟩
        | cons first front =>
          obtain ⟨rfl, tails⟩ := List.cons.inj parts
          obtain ⟨before, j, after, rfl, known, rfl, rfl⟩ := ih tails
          refine ⟨.label k :: before, j, after, rfl, known, ?_, rfl⟩
          rw [traced_label_cons, tagged, Option.elim_some]
          rfl

theorem Opens.traced {front : List (Piece α)} (opens : Opens marks front) :
    Opens marks (traced tag spelling front) := by
  obtain ⟨above, gap, rfl, blanks, starts⟩ := opens
  refine ⟨Skeleton.traced tag spelling above, gap, by simp, blanks, ?_⟩
  refine starts.imp (fun empty => by rw [empty]; rfl) fun ⟨c, known, last⟩ => ⟨c, known, ?_⟩
  obtain ⟨more, rfl⟩ := List.getLast?_eq_some_iff.mp last
  rw [traced_append]
  exact List.getLast?_concat

theorem Closes.traced {back : List (Piece α)} (closes : Closes marks back) :
    Closes marks (traced tag spelling back) := by
  obtain ⟨gap, below, rfl, blanks, ends⟩ := closes
  refine ⟨gap, Skeleton.traced tag spelling below, by simp, blanks, ?_⟩
  refine ends.imp (fun empty => by rw [empty]; rfl) fun ⟨c, known, first⟩ => ⟨c, known, ?_⟩
  obtain ⟨more, rfl⟩ := List.head?_eq_some_iff.mp first
  rfl

/-! ### Lines of pieces -/

theorem mem_labels_of_mem (member : .label k ∈ pieces) : k ∈ labels pieces := by
  obtain ⟨front, back, rfl⟩ := List.append_of_mem member
  simp [labels]

theorem exists_of_mem_labels (member : k ∈ labels pieces) :
    ∃ front back, pieces = front ++ .label k :: back := by
  induction pieces with
  | nil => contradiction
  | cons piece rest ih =>
    have later (inside : k ∈ labels rest) :
        ∃ front back, piece :: rest = front ++ .label k :: back := by
      obtain ⟨front, back, rfl⟩ := ih inside
      exact ⟨piece :: front, back, rfl⟩
    cases piece with
    | loose c => exact later member
    | label a =>
      rcases List.mem_cons.mp member with rfl | inside
      · exact ⟨[], rest, rfl⟩
      · exact later inside

/-- A label with a number of its own stands at one place only. -/
theorem append_inj_of_label (distinct : (labels (front ++ .label k :: back)).Nodup)
    {other more : List (Piece α)} (same : front ++ .label k :: back = other ++ .label k :: more) :
    front = other ∧ back = more := by
  classical
  have absent {before after : List (Piece α)}
      (distinct : (labels (before ++ .label k :: after)).Nodup) : .label k ∉ before := by
    intro member
    rw [labels_append] at distinct
    exact (List.nodup_append.mp distinct).2.2 k (mem_labels_of_mem member) k List.mem_cons_self rfl
  exact Cut.append_inj_of_mark (absent distinct) (absent (same ▸ distinct)) same

/-- Pieces fall into lines. -/
theorem exists_lines (pieces : List (Piece α)) :
    ∃ first more, pieces = first ++ more.flatMap (.loose '\n' :: ·) ∧
      ∀ line ∈ first :: more, .loose '\n' ∉ line := by
  induction pieces with
  | nil => exact ⟨[], [], rfl, by simp⟩
  | cons piece rest ih =>
    obtain ⟨first, more, rfl, single⟩ := ih
    by_cases feed : piece = .loose '\n'
    · exact ⟨[], first :: more, by rw [feed]; rfl, by simpa using single⟩
    · obtain ⟨here, later⟩ := List.forall_mem_cons.mp single
      refine ⟨piece :: first, more, rfl, List.forall_mem_cons.mpr ⟨?_, later⟩⟩
      exact List.not_mem_cons_of_ne_of_not_mem (Ne.symm feed) here

theorem exists_append_of_line {line first : List (Piece α)} {more : List (List (Piece α))}
    (member : line ∈ first :: more) :
    ∃ above below, first ++ more.flatMap (.loose '\n' :: ·) = above ++ (line ++ below) := by
  rcases List.mem_cons.mp member with rfl | later
  · exact ⟨[], _, rfl⟩
  · obtain ⟨before, after, rfl⟩ := List.append_of_mem later
    refine ⟨first ++ (before.flatMap (.loose '\n' :: ·) ++ [.loose '\n']),
      after.flatMap (.loose '\n' :: ·), ?_⟩
    simp

theorem single_line_spell (spelling : α → Label) (single : .loose '\n' ∉ pieces) :
    '\n' ∉ spell spelling pieces := by
  intro member
  obtain ⟨piece, known, inside⟩ := List.mem_flatMap.mp member
  cases piece with
  | loose c => exact single (List.mem_singleton.mp inside ▸ known)
  | label a => exact Label.ne_feed (spelling a) inside rfl

theorem lines_spell (spelling : α → Label) {first : List (Piece α)} {more : List (List (Piece α))}
    (single : ∀ line ∈ first :: more, .loose '\n' ∉ line) :
    Text.lines (spell spelling (first ++ more.flatMap (.loose '\n' :: ·))) =
      (first :: more).map (spell spelling) := by
  have joined : spell spelling (first ++ more.flatMap (.loose '\n' :: ·)) =
      Text.unlines ((first :: more).map (spell spelling)) := by
    rw [List.map_cons, Text.unlines_cons, spell_append, Text.continued, List.flatMap_map]
    exact congrArg (spell spelling first ++ ·) List.flatMap_assoc
  rw [joined]
  refine Text.lines_unlines ?_ (List.cons_ne_nil _ _)
  exact List.forall_mem_map.mpr fun line member => single_line_spell spelling (single line member)

theorem indent_spell (spelling other : α → Label) (pieces : List (Piece α)) :
    Text.indent (spell spelling pieces) = Text.indent (spell other pieces) := by
  have visible (label : Label) (rest : Text) : Text.indent (label.text ++ rest) = [] := by
    obtain ⟨c, text, starts⟩ := List.exists_cons_of_ne_nil label.nonempty
    rw [starts]
    exact List.takeWhile_cons_of_neg (by simp [Phrase.head_visible starts])
  induction pieces with
  | nil => rfl
  | cons piece rest ih =>
    cases piece with
    | loose c =>
      have later : (spell spelling rest).takeWhile Text.isBlank =
        (spell other rest).takeWhile Text.isBlank := ih
      simp only [spell_loose_cons, Text.indent, List.takeWhile_cons, later]
    | label a => rw [spell_label_cons, spell_label_cons, visible, visible]

end Trace

/-! ### The passes on a trace -/

namespace Tagging

variable {places : List Place} {before : α → Label} {tag : α → Option Nat}

/-- The trace shows what every pass leaves: a label is new from the pass on that hits it. -/
theorem spell_stage (tagging : Tagging old new places before pieces tag) (n : Nat) :
    (places.take n).foldl (fun text place => place.replace old.text new.text true text)
      (spell before pieces) =
        spell (fun pass => if pass < n then new else old) (traced tag before pieces) := by
  rw [tagging.stages, spell_traced]
  refine spell_congr fun k _ => ?_
  cases tagged : tag k with
  | none => simp
  | some pass =>
    obtain ⟨-, named, -⟩ := tagging.hit k pass tagged
    simp [named]

/-- A label of the trace is a whole operand of its line. -/
theorem context_of_line (tagging : Tagging old new places before pieces tag)
    (distinct : (labels pieces).Nodup) {above front back below : List (Piece Nat)} {pass : Nat}
    (split : traced tag before pieces = above ++ ((front ++ .label pass :: back) ++ below))
    (single : .loose '\n' ∉ front ++ .label pass :: back) :
    pass < places.length ∧ Opens Place.openers front ∧ Closes Place.closers back := by
  have parts : traced tag before pieces = (above ++ front) ++ .label pass :: (back ++ below) := by
    simpa using split
  obtain ⟨lead, k, rest, cut, tagged, frontTraced, backTraced⟩ := exists_of_traced parts
  obtain ⟨bound, -, other, others, also, opens, closes⟩ := tagging.hit k pass tagged
  obtain ⟨rfl, rfl⟩ := append_inj_of_label (cut ▸ distinct) (cut.symm.trans also)
  refine ⟨bound, Opens.of_append (frontTraced ▸ opens.traced) fun inside => ?_,
    Closes.of_append (backTraced ▸ closes.traced) fun inside => ?_⟩
  · exact single (List.mem_append_left _ inside)
  · exact single (List.mem_append_right _ (List.mem_cons_of_mem _ inside))

end Tagging

end Skeleton

/-! ### What renaming touches -/

namespace Place

/-- A source after the first passes. -/
def passed (old new : Text) (n : Nat) (source : Text) : Text :=
  (inOrder.take n).foldl (fun text place => place.replace old new true text) source

end Place

open Skeleton (spell Opens Closes)

/-- Every pass over the whole source takes part, also where both labels are the same. -/
theorem rename_eq_passed (source : Text) (old new : Label) :
    rename source old.text new.text = Place.passed old.text new.text 3 source := by
  obtain ⟨pieces, before, apart, distinct, rfl, -⟩ := Skeleton.exists_skeleton source old
  obtain ⟨after, passes⟩ := Skeleton.exists_passes old new pieces Place.inOrder before
  have last : Place.passed old.text new.text 3 (spell before pieces) = spell after pieces :=
    passes.foldl_replace Place.inOrder_blind apart distinct
  by_cases same : old = new
  · have kept : after = before := by
      funext k
      rcases passes.kept k with unchanged | ⟨named, renamed⟩
      · exact unchanged
      · rw [renamed, named, same]
    rw [last, kept]
    exact if_pos (.inl (congrArg Phrase.text same))
  · rw [last, passes.rename apart distinct same]

/-- Renaming puts the new label in place of the old one at some places of some lines, each of which
is a whole operand that one of the three passes comes to, and keeps everything else. -/
theorem rename_touches_operands (source : Text) (old new : Label) :
    ∃ traces : List (List (Piece Nat)),
      Text.lines source = traces.map (spell fun _ => old) ∧
      Text.lines (rename source old.text new.text) = traces.map (spell fun _ => new) ∧
      (Text.lines (rename source old.text new.text)).map Text.indent =
        (Text.lines source).map Text.indent ∧
      (∀ trace ∈ traces, ∀ front pass back, trace = front ++ .label pass :: back →
        pass < 3 ∧ Opens Place.openers front ∧ Closes Place.closers back) ∧
      rename source old.text new.text = Place.passed old.text new.text 3 source ∧
      ∀ n, Text.lines (Place.passed old.text new.text n source) =
        traces.map (spell fun pass => if pass < n then new else old) := by
  have done := rename_eq_passed source old new
  obtain ⟨pieces, before, apart, distinct, rfl, -⟩ := Skeleton.exists_skeleton source old
  obtain ⟨after, passes⟩ := Skeleton.exists_passes old new pieces Place.inOrder before
  obtain ⟨tag, tagging⟩ := Skeleton.exists_tagging passes (fun _ known => known) apart distinct
  obtain ⟨first, more, parts, single⟩ :=
    Skeleton.exists_lines (Skeleton.traced tag before pieces)
  have between : ∀ n, Text.lines (Place.passed old.text new.text n (spell before pieces)) =
      (first :: more).map (spell fun pass => if pass < n then new else old) := by
    intro n
    rw [Place.passed, tagging.spell_stage, parts, Skeleton.lines_spell _ single]
  have operands : ∀ trace ∈ first :: more, ∀ front pass back, trace = front ++ .label pass :: back →
      pass < 3 ∧ Opens Place.openers front ∧ Closes Place.closers back := by
    rintro _ member front pass back rfl
    obtain ⟨above, below, whole⟩ := Skeleton.exists_append_of_line member
    exact tagging.context_of_line distinct (parts.trans whole) (single _ member)
  have start : Text.lines (spell before pieces) = (first :: more).map (spell fun _ => old) :=
    between 0
  have finish : Text.lines (rename (spell before pieces) old.text new.text) =
      (first :: more).map (spell fun _ => new) := by
    rw [done, between 3]
    refine List.map_congr_left fun trace member => Skeleton.spell_congr fun pass inside => ?_
    obtain ⟨front, back, shown⟩ := Skeleton.exists_of_mem_labels inside
    exact if_pos (operands trace member front pass back shown).1
  refine ⟨first :: more, start, finish, ?_, operands, done, between⟩
  rw [start, finish, List.map_map, List.map_map]
  exact List.map_congr_left fun trace _ => Skeleton.indent_spell _ _ trace

-- A label with a group reference in it, and the old label as part of a longer one.
example : rename "A > AA\n\t< A\nA [x]".toList ['A'] "\\1".toList =
    "\\1 > AA\n\t< \\1\n\\1 [x]".toList := by
  decide +kernel

end Flowchart
