import Flowchart.Proofs.Draft.Declaration
import Flowchart.Proofs.Reading.Sections

/-!
What the lines of a draft say: each line of its own is clean, and it is read as the declaration, the
edge or the keyword it was written for.
-/
namespace Flowchart

open Draft

namespace NodeDraft

variable (draft : NodeDraft)

theorem given_entries : ∀ pair ∈ draft.entries, Given pair := by
  simp only [entries, List.forall_mem_append]
  exact ⟨⟨given_entry (by decide) draft.shape, given_entry (by decide) draft.color⟩,
    given_entry (by decide) draft.icon⟩

theorem line_clean : Line.Clean draft.line :=
  ⟨trimmed_declaration draft.name draft.entries,
    free_declaration draft.name draft.given_entries '\n' (by decide)⟩

def declaration : Declaration := ⟨draft.name.label.text, Table.ofList draft.entries⟩

theorem node_declaration : draft.declaration.node = draft.node := by
  obtain ⟨name, shape, color, icon⟩ := draft
  cases shape <;> cases color <;> cases icon <;> rfl

theorem ofLine_line : Statement.ofLine draft.line = .node draft.declaration := by
  have kind : Line.kind draft.line = .node := by
    have broken : ∀ c ∈ (bracketed draft.entries).head?, c = ' ' := by
      simpa using head_bracketed draft.entries [] (by simp)
    have arrows : Line.hasSpacedArrow draft.line = false :=
      Line.hasSpacedArrow_eq_false
        (free_declaration draft.name draft.given_entries '<' (by decide))
        (free_declaration draft.name draft.given_entries '>' (by decide))
    rw [line] at arrows ⊢
    rw [draft.name.kind_append broken, arrows, if_neg Bool.false_ne_true,
      if_neg (getLast?_declaration draft.name draft.entries)]
  have read : Declaration.node? draft.line = some draft.declaration := by
    have found := ends_node.read? draft.name draft.given_entries
    rwa [List.append_nil] at found
  have plain : Line.hasArrow draft.declaration.label = false := by
    have left : '<' ∉ draft.name.label.text := draft.name.label.free '<' (by decide)
    have right : '>' ∉ draft.name.label.text := draft.name.label.free '>' (by decide)
    apply List.any_eq_false.mpr
    intro c member
    have notLeft : c ≠ '<' := ne_of_mem_of_not_mem member left
    have notRight : c ≠ '>' := ne_of_mem_of_not_mem member right
    simp [notLeft, notRight]
  simp [Statement.ofLine, kind, read, plain]

end NodeDraft

namespace GroupDraft

variable (draft : GroupDraft)

theorem given_entries : ∀ pair ∈ draft.entries, Given pair := by
  simp only [entries, List.forall_mem_append]
  exact ⟨given_entry (by decide) draft.color, given_entry (by decide) draft.icon⟩

theorem free_opening : Text.Free Caption.marks draft.opening := by
  have ending : Text.Free Caption.marks " \x7b".toList := by decide
  exact (free_declaration draft.name draft.given_entries).append ending

theorem opening_clean : Line.Clean draft.opening := by
  refine ⟨?_, draft.free_opening '\n' (by decide)⟩
  have joined : draft.opening =
      draft.name.written ++ (bracketed draft.entries ++ [' ']) ++ ['\x7b'] := by
    simp [opening]
  rw [joined]
  exact draft.name.written_trimmed.append (Text.trimmed_singleton (by decide))
    draft.name.written_ne_nil (List.cons_ne_nil _ _) _

def declaration : Declaration := ⟨draft.name.label.text, Table.ofList draft.entries⟩

theorem group_declaration : draft.declaration.group = draft.group.outline := by
  obtain ⟨name, color, icon, members⟩ := draft
  cases color <;> cases icon <;> rfl

theorem ofLine_opening : Statement.ofLine draft.opening = .group draft.declaration := by
  have joined : draft.opening =
      draft.name.written ++ (bracketed draft.entries ++ " \x7b".toList) := by
    simp [opening]
  have kind : Line.kind draft.opening = .groupOpen := by
    have broken := head_bracketed draft.entries " \x7b".toList (by simp)
    have arrows : Line.hasSpacedArrow draft.opening = false :=
      Line.hasSpacedArrow_eq_false (draft.free_opening '<' (by decide))
        (draft.free_opening '>' (by decide))
    have last : draft.opening.getLast? = some '\x7b' := by simp [opening]
    rw [joined] at arrows last ⊢
    rw [draft.name.kind_append broken, arrows, if_neg Bool.false_ne_true, if_pos last]
  have read : Declaration.group? draft.opening = some draft.declaration := by
    rw [joined]
    exact ends_group.read? draft.name draft.given_entries
  simp [Statement.ofLine, kind, read]

end GroupDraft

theorem Line.closeMark_clean : Clean closeMark := ⟨rfl, by decide⟩

theorem ItemDraft.lines_clean (item : ItemDraft) : ∀ line ∈ item.lines, Line.Clean line := by
  cases item with
  | node draft =>
    intro line member
    rw [List.mem_singleton.mp member]
    exact draft.line_clean
  | group draft =>
    intro line member
    simp only [lines, GroupDraft.lines, List.cons_append, List.mem_cons, List.mem_append,
      List.mem_map, List.not_mem_nil, or_false] at member
    rcases member with rfl | ⟨node, _, rfl⟩ | rfl
    · exact draft.opening_clean
    · exact node.line_clean
    · exact Line.closeMark_clean

namespace EdgeDraft

variable (draft : EdgeDraft)

theorem operand_trimmed : Text.Trimmed draft.operand := by
  obtain ⟨source, target, caption⟩ := draft
  cases caption with
  | none => simpa [operand] using target.written_trimmed
  | some caption =>
    have joined := target.written_trimmed.append caption.trimmed target.written_ne_nil
      caption.nonempty ": ".toList
    rwa [List.append_assoc] at joined

theorem operand_ne_nil : draft.operand ≠ [] := by
  simp [operand, draft.target.written_ne_nil]

theorem free_operand : Text.Free Caption.marks draft.operand := by
  apply draft.target.free_written.append
  have between : Text.Free Caption.marks ": ".toList := by decide
  cases draft.caption with
  | none => exact fun _ _ => List.not_mem_nil
  | some caption => exact between.append caption.free

theorem line_clean : Line.Clean draft.line := by
  constructor
  · exact draft.source.written_trimmed.append draft.operand_trimmed draft.source.written_ne_nil
      draft.operand_ne_nil " > ".toList
  · have before := draft.source.free_written '\n' (by decide)
    have behind := draft.free_operand '\n' (by decide)
    simp [line, before, behind]

theorem splitLabel_operand :
    Chain.splitLabel draft.operand = (draft.target.written, draft.caption.map (·.text)) := by
  have colon : ':' ∉ draft.target.written := draft.target.not_mem_written (by decide) (by decide)
  cases shape : draft.caption with
  | none => simpa [operand, shape] using Chain.splitLabel_of_not_mem colon
  | some caption =>
    have single := draft.target.free_written '\n' (by decide)
    have cut := Chain.splitLabel_append draft.target.written_trimmed draft.target.written_ne_nil
      colon single caption.trimmed (caption.free '\n' (by decide))
    simpa [operand, shape] using cut

theorem links_line :
    Chain.links draft.line = [⟨draft.source.written, .forward, draft.operand⟩] := by
  have unmarked {text : Text} (free : Text.Free Caption.marks text) :
      ∀ c ∈ text, Arrow.ofMark? c = none := fun c member =>
    Chain.ofMark?_eq_none (free '<' (by decide)) (free '>' (by decide)) member
  have joined : draft.line = draft.source.written ++ ' ' :: '>' :: ' ' :: draft.operand := by
    simp [line]
  rw [joined]
  exact Chain.links_of_arrow .forward draft.source.written_trimmed draft.operand_trimmed
    (unmarked draft.source.free_written) (unmarked draft.free_operand)

theorem ofLine_line : Statement.ofLine draft.line =
    .chain [⟨draft.source.written, .forward, draft.operand⟩] := by
  have kind : Line.kind draft.line = .relationship := by
    have arrows : Line.hasSpacedArrow draft.line = true := Line.hasSpacedArrow_append _ _
    have broken : ∀ c ∈ (" > ".toList ++ draft.operand).head?, c = ' ' := by simp
    rw [line, List.append_assoc] at arrows ⊢
    rw [draft.source.kind_append broken, if_pos arrows]
  simp only [Statement.ofLine, kind, draft.links_line]

theorem edge_link : Link.edge ⟨draft.source.written, .forward, draft.operand⟩ = draft.edge := by
  simp only [Link.edge, draft.splitLabel_operand, Name.stripQuotes_written]
  rfl

end EdgeDraft

/-! ### Title and direction -/

theorem Text.lowerChar_of_isBlank {c : Char} (blank : isBlank c = true) : lowerChar c = c := by
  have kelvin : c ≠ '\u212a' := by
    rintro rfl
    contradiction
  have capital : ¬(c.val ≥ 'A'.val ∧ c.val ≤ 'Z'.val) := by
    rintro ⟨low, high⟩
    have lower : 65 ≤ c.toNat := low
    have upper : c.toNat ≤ 90 := high
    simp [isBlank] at blank
    omega
  rw [lowerChar, if_neg kelvin]
  exact dif_neg capital

namespace Draft

variable (draft : Draft)

theorem word_visible : ∀ c ∈ draft.word, Text.isBlank c = false := by
  have letters : ∀ entry ∈ Direction.keywords, entry.1.all (!Text.isBlank ·) = true := by decide
  intro c member
  apply Bool.eq_false_iff.mpr
  intro blank
  have kept : c ∈ Text.lower draft.word :=
    Text.lowerChar_of_isBlank blank ▸ List.mem_map_of_mem member
  have visible := List.all_eq_true.mp (letters _ draft.known) c kept
  rw [blank] at visible
  contradiction

theorem word_ne_nil : draft.word ≠ [] := by
  have nonempty : ∀ entry ∈ Direction.keywords, entry.1 ≠ [] := by decide
  intro empty
  apply nonempty _ draft.known
  rw [empty]
  rfl

theorem word_trimmed : Text.Trimmed draft.word :=
  Text.trimmed_of_ends (fun c found => draft.word_visible c (List.mem_of_mem_head? found))
    fun c found => draft.word_visible c (List.mem_of_getLast? found)

theorem ofWord?_word : Direction.ofWord? draft.word = some draft.direction := by
  have values : ∀ entry ∈ Direction.keywords, Direction.keywords.get? entry.1 = some entry.2 := by
    decide
  have trimmed : Text.trim draft.word = draft.word := draft.word_trimmed
  rw [Direction.ofWord?, trimmed]
  exact values _ draft.known

theorem ofLine_directionLine : Statement.ofLine draft.directionLine = .direction draft.word := by
  have kind : Line.kind draft.directionLine = .direction := rfl
  have trimmed : Text.trim draft.word = draft.word := draft.word_trimmed
  have word : draft.directionLine.drop Line.directionMark.length = draft.word := List.drop_left
  simp only [Statement.ofLine, kind, word, trimmed]

theorem directionLine_clean : Line.Clean draft.directionLine := by
  have mark : Text.Trimmed "direction".toList := rfl
  have single : '\n' ∉ draft.word := by
    intro member
    have visible := draft.word_visible '\n' member
    contradiction
  have keyword : '\n' ∉ Line.directionMark := by decide
  constructor
  · exact mark.append draft.word_trimmed (by decide) draft.word_ne_nil [' ']
  · simp only [directionLine, List.mem_append, keyword, single, or_self, not_false_eq_true]

theorem ofLine_titleLine (title : Title) :
    Statement.ofLine (titleLine title) = .title title.text := by
  have kind : Line.kind (titleLine title) = .title := rfl
  have trimmed : Text.trim title.text = title.text := title.trimmed
  have word : (titleLine title).drop Line.titleMark.length = title.text := List.drop_left
  simp only [Statement.ofLine, kind, word, trimmed]

theorem titleLine_clean (title : Title) : Line.Clean (titleLine title) := by
  have mark : Text.Trimmed "title".toList := rfl
  have keyword : '\n' ∉ Line.titleMark := by decide
  have single : '\n' ∉ title.text := title.free '\n' (by decide)
  constructor
  · exact mark.append title.trimmed (by decide) title.nonempty [' ']
  · simp only [titleLine, List.mem_append, keyword, single, or_self, not_false_eq_true]

theorem lines_clean : ∀ line ∈ draft.lines, Line.Clean line := by
  simp only [lines, List.forall_mem_append]
  refine ⟨⟨⟨?_, ?_⟩, ?_⟩, ?_⟩
  · intro line member
    obtain ⟨title, _, rfl⟩ := List.mem_map.mp member
    exact titleLine_clean title
  · intro line member
    rw [List.mem_singleton.mp member]
    exact draft.directionLine_clean
  · intro line member
    obtain ⟨item, _, inside⟩ := List.mem_flatMap.mp member
    exact item.lines_clean line inside
  · intro line member
    obtain ⟨edge, _, rfl⟩ := List.mem_map.mp member
    exact edge.line_clean

end Draft

end Flowchart
