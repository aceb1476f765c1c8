import Flowchart.Proofs.Chain.Splitting
import Flowchart.Proofs.Cut
import Flowchart.Proofs.Draft.Basic
import Flowchart.Proofs.Reading.Sections
import Mathlib.Data.Nat.Find

/-!
Where the label of an operand begins. It stands behind the first colon that is not the first
character, if that colon is not the last character either, and later colons are part of it. An
operand without such a colon has no label. Either way no text that an edge is made from is empty.
-/
namespace Flowchart.Chain

/-- A colon behind the first character of an operand. -/
structure ColonAt (operand : Text) (place : Nat) : Prop where
  inside : 1 ≤ place
  colon : operand[place]? = some ':'

namespace ColonAt

variable {operand front rest : Text} {place : Nat}

theorem parts (colon : ColonAt operand place) :
    ∃ front rest, operand = front ++ ':' :: rest ∧ front.length = place ∧ front ≠ [] := by
  obtain ⟨front, rest, joined, length⟩ := Cut.getElem?_eq_some_iff_append.mp colon.colon
  exact ⟨front, rest, joined, length, List.ne_nil_of_length_pos (colon.inside.trans_eq length.symm)⟩

theorem of_parts (nonempty : front ≠ []) (rest : Text) :
    ColonAt (front ++ ':' :: rest) front.length :=
  ⟨List.length_pos_iff.mpr nonempty, Cut.getElem?_eq_some_iff_append.mpr ⟨front, rest, rfl, rfl⟩⟩

/-- In front of the first colon only the first character can be one. -/
theorem not_mem_tail (first : ∀ earlier < front.length, ¬ColonAt (front ++ ':' :: rest) earlier) :
    ':' ∉ front.tail := by
  cases front with
  | nil => exact List.not_mem_nil
  | cons c more =>
    intro member
    obtain ⟨before, behind, rfl⟩ := List.append_of_mem member
    have early := of_parts (List.cons_ne_nil c before) (behind ++ ':' :: rest)
    refine first (c :: before).length (by simp) ?_
    simpa using early

theorem exists_first (colon : ColonAt operand place) : ∃ least ≤ place,
    ColonAt operand least ∧ ∀ earlier < least, ¬ColonAt operand earlier := by
  classical
  have found : ∃ place, ColonAt operand place := ⟨place, colon⟩
  exact ⟨Nat.find found, Nat.find_min' found colon, Nat.find_spec found,
    fun _ => Nat.find_min found⟩

end ColonAt

variable {operand : Phrase ['\n']} {place : Nat}

/-- An operand comes apart at its first colon, if something stands behind it. -/
theorem splitLabel_of_colonAt (colon : ColonAt operand.text place)
    (first : ∀ earlier < place, ¬ColonAt operand.text earlier)
    (followed : place + 1 < operand.text.length) :
    splitLabel operand.text = (Text.trim (operand.text.take place),
      some (Text.trim (operand.text.drop (place + 1)))) := by
  obtain ⟨front, rest, joined, rfl, nonempty⟩ := colon.parts
  have single : '\n' ∉ front ++ ':' :: rest := joined ▸ operand.free '\n' (by decide)
  rw [joined] at first followed
  have shown : rest ≠ [] := by
    rintro rfl
    simp at followed
  have split := splitLabel_colon nonempty (ColonAt.not_mem_tail first) shown
    (fun member => single (List.mem_append_left _ member))
    (fun member => single (List.mem_append_right _ (List.mem_cons_of_mem ':' member)))
  rw [joined, split, List.take_left, List.drop_length_add_append]
  rfl

theorem splitLabel_of_unusable
    (last : ∀ place, ColonAt operand.text place → place + 1 = operand.text.length) :
    splitLabel operand.text = (operand.text, none) := by
  apply splitLabel_bare
  intro front rest joined nonempty
  have ends := last front.length (joined ▸ ColonAt.of_parts nonempty rest)
  rw [joined] at ends
  simpa using ends

/-- The name of an operand begins where the operand begins. -/
theorem name_ne_nil (operand : Phrase ['\n']) : (splitLabel operand.text).1 ≠ [] := by
  cases found : (splitLabel operand.text).2 with
  | none =>
    rw [splitLabel_of_unlabelled found]
    exact operand.nonempty
  | some label =>
    obtain ⟨front, rest, joined, nonempty, -, name, -⟩ := parts_of_splitLabel found
    obtain ⟨_, -, -, shown⟩ := (joined ▸ operand.trimmed).exists_gap nonempty
    rwa [name]

theorem label_ne_nil (operand : Phrase ['\n']) : (splitLabel operand.text).2 ≠ some [] :=
  fun found => (label_of_splitLabel operand.trimmed found).1 rfl

/-! ### Edges -/

theorem exists_phrase_of_mem_links {line : Text} (clean : Line.Clean line) {link : Link}
    (member : link ∈ links line) : ∃ operand : Phrase ['\n'], operand.text = link.right := by
  obtain ⟨trimmed, within⟩ := right_of_mem_links member
  refine ⟨⟨link.right, (operands_ne_nil clean.1 link member).2, trimmed, ?_⟩, rfl⟩
  rintro mark known inside
  rw [List.mem_singleton.mp known] at inside
  exact clean.2 (within '\n' inside)

/-- Every edge of a diagram is that of a link on some line. -/
theorem exists_link_of_mem_edges {source : Text} {edge : Edge}
    (member : edge ∈ (Diagram.ofSource source).edges) :
    ∃ line ∈ Line.ofSource source, ∃ link ∈ links line, link.edge = edge := by
  rw [Diagram.ofSource, Reading.ofSource_eq, Reading.edges_ofLines] at member
  obtain ⟨line, known, own⟩ := List.mem_flatMap.mp member
  rw [Line.edges] at own
  split at own
  · exact ⟨line, known, List.mem_map.mp own⟩
  · contradiction

/-- An operand comes apart at the first colon behind its first character. If there is none, or
nothing stands behind it, the operand is kept as it is and has no label. Otherwise both sides show
something, and the label keeps all later colons. So neither a label nor an operand of an edge is
ever empty. -/
theorem splitLabel_first_colon :
    (∀ operand : Phrase ['\n'],
      (∃ place, ColonAt operand.text place ∧ (∀ earlier < place, ¬ColonAt operand.text earlier) ∧
          place + 1 < operand.text.length ∧
          let name := Text.trim (operand.text.take place)
          let label := Text.trim (operand.text.drop (place + 1))
          splitLabel operand.text = (name, some label) ∧ name ≠ [] ∧ label ≠ [] ∧
            label.count ':' = (operand.text.drop (place + 1)).count ':') ∨
        ((∀ place, ColonAt operand.text place → place + 1 = operand.text.length) ∧
          splitLabel operand.text = (operand.text, none))) ∧
      ∀ source, ∀ edge ∈ (Diagram.ofSource source).edges,
        ∃ line ∈ Line.ofSource source, ∃ link ∈ links line, link.edge = edge ∧
          link.left ≠ [] ∧ (splitLabel link.right).1 ≠ [] ∧ edge.label ≠ some [] := by
  constructor
  · intro operand
    by_cases usable : ∃ place, ColonAt operand.text place ∧ place + 1 < operand.text.length
    · obtain ⟨place, colon, followed⟩ := usable
      obtain ⟨least, before, here, first⟩ := colon.exists_first
      have inside : least + 1 < operand.text.length := by omega
      have split := splitLabel_of_colonAt here first inside
      have name := name_ne_nil operand
      have label := label_ne_nil operand
      rw [split] at name label
      exact .inl ⟨least, here, first, inside, split, name, mt (congrArg some) label,
        Text.count_trim (by decide) _⟩
    · have last : ∀ place, ColonAt operand.text place → place + 1 = operand.text.length := by
        intro place colon
        have within : place < operand.text.length :=
          (List.getElem?_eq_some_iff.mp colon.colon).1
        have none : ¬place + 1 < operand.text.length := fun more => usable ⟨place, colon, more⟩
        omega
      exact .inr ⟨last, splitLabel_of_unusable last⟩
  · intro source edge member
    obtain ⟨line, known, link, linked, rfl⟩ := exists_link_of_mem_edges member
    have clean := Line.clean_of_mem_ofSource known
    obtain ⟨operand, same⟩ := exists_phrase_of_mem_links clean linked
    refine ⟨line, known, link, linked, rfl, (operands_ne_nil clean.1 link linked).1, ?_, ?_⟩
    · exact same ▸ name_ne_nil operand
    · rw [link.label_edge, ← same]
      exact label_ne_nil operand

/-- A colon at the start and colons behind the first one set nothing apart. -/
example : splitLabel ":a :b:\t: c".toList = (":a".toList, some "b:\t: c".toList) ∧
    splitLabel ":a b:".toList = (":a b:".toList, none) := by
  decide

end Flowchart.Chain
