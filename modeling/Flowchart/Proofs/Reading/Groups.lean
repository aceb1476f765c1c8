import Flowchart.Proofs.Reading.Sections

/-!
Which groups a source makes. A closing brace ends the group that was opened last, if no other brace
was closed since; the members are the nodes declared in between. A group that is replaced by another
opening, or never closed, leaves nothing.
-/
namespace Flowchart

namespace Line

/-- A line that opens a group and can be read, or one that closes a group. -/
def isBoundary (line : Text) : Bool := (opening? line).isSome || closes line

def indices (test : Text → Bool) (lines : List Text) : List Nat :=
  (List.range lines.length).filter fun i => (lines[i]?).any test

/-- The group that line `i` opens, with the nodes that stand between the lines `i` and `j`. -/
def groupBetween? (lines : List Text) (i j : Nat) : Option Group :=
  ((lines[i]?).bind opening?).map fun declaration =>
    { declaration.group with
      members := (((lines.take j).drop (i + 1)).filterMap node?).map (·.id) }

/-- The group of the nearest boundary before line `j`, if that is an opening. -/
def groupBefore? (lines : List Text) (j : Nat) : Option Group :=
  ((indices isBoundary lines).filter (· < j)).getLast?.bind (groupBetween? lines · j)

def groupClosedAt? (lines : List Text) (j : Nat) : Option Group :=
  if lines[j]? = some closeMark then groupBefore? lines j else none

/-- The group of the last opening, if no closing follows it. -/
def groupLeftOpen? (lines : List Text) : Option Group :=
  (indices (fun line => (opening? line).isSome) lines).getLast?.bind fun i =>
    if (lines.drop (i + 1)).any closes then none else groupBetween? lines i lines.length

variable {test : Text → Bool} {lines : List Text} {line : Text}

theorem lt_of_mem_indices {i : Nat} (member : i ∈ indices test lines) : i < lines.length :=
  List.mem_range.mp (List.mem_filter.mp member).1

theorem indices_concat (test : Text → Bool) (lines : List Text) (line : Text) :
    indices test (lines ++ [line]) =
      indices test lines ++ if test line then [lines.length] else [] := by
  have before : (List.range lines.length).filter (fun i => ((lines ++ [line])[i]?).any test) =
      indices test lines := by
    apply List.filter_congr
    intro i member
    rw [List.getElem?_append_left (List.mem_range.mp member)]
  rw [indices, List.length_append, List.length_singleton, List.range_succ, List.filter_append,
    before]
  cases hit : test line <;> simp [hit]

theorem opening?_eq_none (closing : closes line = true) : opening? line = none := by
  rw [closes_eq] at closing
  rw [opening?, of_decide_eq_true closing]
  rfl

theorem groupBetween?_append {i j : Nat} (order : i < j) (bound : j ≤ lines.length) :
    groupBetween? (lines ++ [line]) i j = groupBetween? lines i j := by
  rw [groupBetween?, groupBetween?, List.getElem?_append_left (by omega),
    List.take_append_of_le_length bound]

theorem groupBetween?_concat {i : Nat} (bound : i < lines.length) :
    groupBetween? (lines ++ [line]) i (lines.length + 1) =
      match node? line with
      | some node => (groupBetween? lines i lines.length).map (·.addMember node.id)
      | none => groupBetween? lines i lines.length := by
  have whole : (lines ++ [line]).take (lines.length + 1) = lines ++ [line] :=
    List.take_of_length_le (by simp)
  rw [groupBetween?, groupBetween?, List.getElem?_append_left bound, whole, List.take_length,
    List.drop_append_of_le_length (by omega), List.filterMap_append, List.map_append]
  cases declared : node? line with
  | none => simp [declared]
  | some node => cases (lines[i]?).bind opening? <;> simp [declared, Group.addMember]

/-- The opening itself has no members yet. -/
theorem groupBetween?_last :
    groupBetween? (lines ++ [line]) lines.length (lines.length + 1) =
      (opening? line).map Declaration.group := by
  have nothing : ((lines ++ [line]).take (lines.length + 1)).drop (lines.length + 1) = [] :=
    List.drop_eq_nil_of_le (by simp)
  rw [groupBetween?, nothing, List.getElem?_concat_length]
  rfl

theorem groupBefore?_append {j : Nat} (bound : j ≤ lines.length) :
    groupBefore? (lines ++ [line]) j = groupBefore? lines j := by
  have same : (indices isBoundary (lines ++ [line])).filter (· < j) =
      (indices isBoundary lines).filter (· < j) := by
    have late : ¬lines.length < j := by omega
    rw [indices_concat, List.filter_append]
    cases isBoundary line <;> simp [late]
  rw [groupBefore?, groupBefore?, same]
  apply Option.bind_congr
  intro i found
  have order := (List.mem_filter.mp (List.mem_of_getLast? found)).2
  exact groupBetween?_append (of_decide_eq_true order) bound

theorem groupBefore?_length (lines : List Text) :
    groupBefore? lines lines.length =
      (indices isBoundary lines).getLast?.bind (groupBetween? lines · lines.length) := by
  have all : (indices isBoundary lines).filter (· < lines.length) = indices isBoundary lines := by
    apply List.filter_eq_self.mpr
    intro i member
    exact decide_eq_true (lt_of_mem_indices member)
  rw [groupBefore?, all]

theorem groupAfter_inside (unopened : opening? line = none) (unclosed : closes line = false)
    {i : Nat} (bound : i < lines.length) :
    groupBetween? (lines ++ [line]) i (lines.length + 1) =
      groupAfter line (groupBetween? lines i lines.length) := by
  rw [groupBetween?_concat bound, groupAfter, unclosed, unopened]
  cases node? line <;> rfl

theorem groupAfter_none (unopened : opening? line = none) : groupAfter line none = none := by
  rw [groupAfter, unopened]
  cases closes line <;> cases node? line <;> rfl

theorem groupBefore?_concat (lines : List Text) (line : Text) :
    groupBefore? (lines ++ [line]) (lines ++ [line]).length =
      groupAfter line (groupBefore? lines lines.length) := by
  rw [groupBefore?_length, groupBefore?_length, indices_concat, List.length_append,
    List.length_singleton]
  cases closing : closes line with
  | true =>
    simp [groupAfter, isBoundary, closing, groupBetween?_last, opening?_eq_none closing]
  | false =>
    cases opened : opening? line with
    | some declaration => simp [groupAfter, isBoundary, closing, opened, groupBetween?_last]
    | none =>
      have inside : isBoundary line = false := by simp [isBoundary, opened, closing]
      rw [inside, if_neg Bool.false_ne_true, List.append_nil]
      cases last : (indices isBoundary lines).getLast? with
      | none => exact (groupAfter_none opened).symm
      | some i =>
        exact groupAfter_inside opened closing (lt_of_mem_indices (List.mem_of_getLast? last))

theorem groupLeftOpen?_concat (lines : List Text) (line : Text) :
    groupLeftOpen? (lines ++ [line]) = groupAfter line (groupLeftOpen? lines) := by
  rw [groupLeftOpen?, groupLeftOpen?, indices_concat, List.length_append, List.length_singleton]
  cases opened : opening? line with
  | some declaration =>
    cases closing : closes line with
    | true =>
      rw [opening?_eq_none closing] at opened
      contradiction
    | false => simp [groupAfter, opened, closing, groupBetween?_last]
  | none =>
    rw [Option.isSome_none, if_neg Bool.false_ne_true, List.append_nil]
    cases last : (indices (fun line => (opening? line).isSome) lines).getLast? with
    | none => exact (groupAfter_none opened).symm
    | some i =>
      have bound : i < lines.length := lt_of_mem_indices (List.mem_of_getLast? last)
      rw [Option.bind_some, Option.bind_some, List.drop_append_of_le_length bound, List.any_append,
        List.any_cons, List.any_nil, Bool.or_false]
      cases closing : closes line with
      | true => simp [groupAfter, closing]
      | false =>
        rw [Bool.or_false]
        split
        · exact (groupAfter_none opened).symm
        · exact groupAfter_inside opened closing bound

end Line

namespace Reading

/-- What follows `Line.groupAfter` from line to line is the open group. -/
theorem openGroup_eq_of_concat (group? : List Text → Option Group) (start : group? [] = none)
    (step : ∀ lines line, group? (lines ++ [line]) = Line.groupAfter line (group? lines))
    (lines : List Text) : (ofLines lines).openGroup = group? lines := by
  induction lines using List.reverseRecOn with
  | nil => exact start.symm
  | append_singleton before line ih => rw [ofLines_concat, apply_ofLine, ih, step]

theorem groups_ofLines (lines : List Text) :
    (ofLines lines).diagram.groups =
      (List.range lines.length).filterMap (Line.groupClosedAt? lines) := by
  induction lines using List.reverseRecOn with
  | nil => rfl
  | append_singleton before line ih =>
    have earlier : (List.range before.length).filterMap (Line.groupClosedAt? (before ++ [line])) =
        (List.range before.length).filterMap (Line.groupClosedAt? before) := by
      apply List.filterMap_congr
      intro j member
      have bound := List.mem_range.mp member
      rw [Line.groupClosedAt?, Line.groupClosedAt?, List.getElem?_append_left bound,
        Line.groupBefore?_append (Nat.le_of_lt bound)]
    have current : (ofLines before).openGroup = Line.groupBefore? before before.length :=
      openGroup_eq_of_concat (fun lines => Line.groupBefore? lines lines.length) rfl
        Line.groupBefore?_concat before
    have now : Line.groupClosedAt? (before ++ [line]) before.length =
        if Line.closes line then (ofLines before).openGroup else none := by
      rw [Line.groupClosedAt?, List.getElem?_concat_length,
        Line.groupBefore?_append (Nat.le_refl _), current]
      simp [Line.closes]
    rw [ofLines_concat, apply_ofLine, List.length_append, List.length_singleton, List.range_succ,
      List.filterMap_append, earlier, ih, List.filterMap_cons, now]
    cases Line.closes line <;> cases (ofLines before).openGroup <;> rfl

theorem ofLine_loneBrace : Statement.ofLine ['\x7b'] = .unreadableGroup ['\x7b'] := by decide

/-- The groups of a diagram are those of the closings that match an opening, in the order of the
closings; the group left open is that of the last opening, if no closing follows it. A brace that
opens nothing has no effect. -/
theorem groups_matched (source : Text) :
    let lines := Line.ofSource source
    let reading := Reading.ofSource source
    reading.diagram.groups =
        (List.range lines.length).filterMap (Line.groupClosedAt? lines) ∧
      reading.openGroup = Line.groupLeftOpen? lines ∧
      ∀ before after : List Text,
        ofLines (before ++ ['\x7b'] :: after) = ofLines (before ++ after) := by
  intro lines reading
  have run : reading = ofLines lines := ofSource_eq source
  refine ⟨?_, ?_, ?_⟩
  · rw [run]
    exact groups_ofLines lines
  · rw [run]
    exact openGroup_eq_of_concat Line.groupLeftOpen? rfl Line.groupLeftOpen?_concat lines
  · intro before after
    simp only [ofLines, ofStatements, List.map_append, List.map_cons, List.foldl_append,
      List.foldl_cons, ofLine_loneBrace]
    rfl

-- The first opening is replaced by the second, and the last brace closes nothing.
example : (ofSource "a \x7b\nx\nb \x7b\ny\ny\n\x7d\n\x7d".toList).diagram.groups =
    [{ id := "b".toList, label := "b".toList, members := ["y".toList, "y".toList] }] := by rfl

end Reading

end Flowchart
