import Flowchart.Proofs.Draft.Basic
import Flowchart.Proofs.Line

/-!
Names and declarations of a draft. A name is told from the properties, the brace or the arrow behind
it, and none of its characters can be taken for a keyword or a mark.
-/
namespace Flowchart.Draft

/-! ### Names

A line that begins with a name is a declaration or an edge: quotes are not part of a keyword, and a
label without quotes does not begin with one. -/

namespace Name

variable (name : Name) {rest : Text}

theorem not_mem_written {mark : Char} (known : mark ∈ Label.marks)
    (plain : mark ∉ Quoting.marks) : mark ∉ name.written := by
  have inside : mark ∉ name.label.text := name.label.free mark known
  have quotes : name.quoting.mark ⊆ Quoting.marks := by
    cases name.quoting <;> simp [Quoting.mark, Quoting.marks]
  have outside : mark ∉ name.quoting.mark := fun member => plain (quotes member)
  simp [written, inside, outside]

theorem free_written : Text.Free Caption.marks name.written := by
  have apart : Text.Free Caption.marks Quoting.marks := by decide
  intro mark known
  exact name.not_mem_written (List.mem_append_right _ known) (apart mark known)

theorem written_ne_nil : name.written ≠ [] := by
  simp [written, name.label.nonempty]

theorem written_trimmed : Text.Trimmed name.written := by
  have ends {quote : Char} (visible : Text.isBlank quote = false) :
      Text.Trimmed ([quote] ++ name.label.text ++ [quote]) :=
    (Text.trimmed_singleton visible).append (Text.trimmed_singleton visible) (by simp) (by simp)
      name.label.text
  cases shape : name.quoting with
  | bare => simpa [written, shape, Quoting.mark] using name.label.trimmed
  | double | single =>
    rw [written, shape]
    exact ends (by decide)

theorem stripQuotes_written : Text.stripQuotes name.written = name.label.text := by
  have single : '\n' ∉ name.label.text := name.label.free '\n' (by decide)
  cases shape : name.quoting with
  | bare =>
    have free : ∀ c ∈ name.label.text, Text.isQuote c = false := by
      intro c member
      have double : c ≠ '\x22' := ne_of_mem_of_not_mem member (name.label.free _ (by decide))
      have apostrophe : c ≠ '\x27' := ne_of_mem_of_not_mem member (name.label.free _ (by decide))
      simp [Text.isQuote, double, apostrophe]
    simpa [written, shape, Quoting.mark] using Text.stripQuotes_of_free free single
  | double | single =>
    rw [written, shape]
    exact Text.stripQuotes_of_quoted rfl single

/-- No word begins with a quote. -/
theorem written_eq_label {word : Text} (nonempty : word ≠ [])
    (plain : Text.Free Quoting.marks word) (start : word <+: name.written ++ rest) :
    name.written = name.label.text := by
  obtain ⟨c, more, rfl⟩ := List.exists_cons_of_ne_nil nonempty
  have first : c ∉ Quoting.marks := fun quote => plain c quote List.mem_cons_self
  cases shape : name.quoting with
  | bare => simp [written, shape, Quoting.mark]
  | double | single =>
    rw [written, shape, Quoting.mark, List.append_assoc, List.append_assoc, List.singleton_append,
      List.cons_prefix_cons] at start
    rw [start.1] at first
    exact absurd (by decide) first

theorem not_comment (broken : ∀ c ∈ rest.head?, c = ' ') :
    "//".toList.isPrefixOf (name.written ++ rest) = false := by
  apply Bool.eq_false_iff.mpr
  intro marked
  have start := List.isPrefixOf_iff_prefix.mp marked
  have bare := name.written_eq_label (by decide) (by decide) start
  rw [bare] at start
  exact name.label.comment (Text.prefix_of_break (by decide) broken start)

theorem not_keyword {word : Text} (keyword : word ∈ keywords)
    (broken : ∀ c ∈ rest.head?, c = ' ') :
    (word ++ [' ']).isPrefixOf (name.written ++ rest) = false := by
  have letters : ∀ word ∈ keywords, word ≠ [] ∧ ' ' ∉ word ∧ Text.Free Quoting.marks word := by
    decide
  obtain ⟨nonempty, free, plain⟩ := letters word keyword
  apply Bool.eq_false_iff.mpr
  intro marked
  have start := List.isPrefixOf_iff_prefix.mp marked
  have bare := name.written_eq_label nonempty plain ((List.prefix_append word [' ']).trans start)
  obtain ⟨other, unmarked⟩ := name.label.keyword word keyword
  rw [bare] at start
  rcases Text.word_of_break free broken start with same | inside
  · exact other same
  · exact unmarked inside

theorem kind_append (broken : ∀ c ∈ rest.head?, c = ' ') :
    Line.kind (name.written ++ rest) =
      if Line.hasSpacedArrow (name.written ++ rest) then .relationship
      else if (name.written ++ rest).getLast? = some '\x7b' then .groupOpen else .node := by
  have title : Line.titleMark.isPrefixOf (name.written ++ rest) = false :=
    name.not_keyword List.mem_cons_self broken
  have direction : Line.directionMark.isPrefixOf (name.written ++ rest) = false :=
    name.not_keyword (List.mem_cons_of_mem _ List.mem_cons_self) broken
  have close : name.written ++ rest ≠ Line.closeMark := by
    intro same
    obtain ⟨c, more, shown⟩ := List.exists_cons_of_ne_nil name.written_ne_nil
    have brace : c = '\x7d' := by
      rw [shown, List.cons_append, Line.closeMark] at same
      exact (List.cons.inj same).1
    have absent := name.not_mem_written (by decide : '\x7d' ∈ Label.marks) (by decide)
    rw [shown, brace] at absent
    exact absent List.mem_cons_self
  have shown : (name.written ++ rest).isEmpty = false := by
    simp [name.written_ne_nil]
  simp only [Line.kind, shown, name.not_comment broken, title, direction, close,
    Bool.false_eq_true, if_false]

end Name

/-! ### Properties -/

/-- A property that a draft may give. -/
structure Given (entry : Text × Text) : Prop where
  key : entry.1 ∈ Property.known
  value : ∃ phrase : Value, phrase.text = entry.2

variable {entries : List (Text × Text)}

theorem given_entry {key : Text} (known : key ∈ Property.known) (value : Option Value) :
    ∀ pair ∈ entry key value, Given pair := by
  intro pair member
  obtain ⟨phrase, _, rfl⟩ := Option.map_eq_some_iff.mp (Option.mem_toList.mp member)
  exact ⟨known, phrase, rfl⟩

theorem Given.writable {pair : Text × Text} (given : Given pair) : Property.Writable pair := by
  obtain ⟨phrase, value⟩ := given.value
  have keys : ∀ key ∈ Property.known,
      key ≠ [] ∧ Text.trim key = key ∧ ':' ∉ key ∧ ',' ∉ key := by decide
  obtain ⟨nonempty, trimmed, colon, comma⟩ := keys pair.1 given.key
  exact ⟨nonempty, trimmed, colon, comma, value ▸ phrase.trimmed,
    value ▸ phrase.free ',' (by decide)⟩

theorem not_mem_write (given : ∀ pair ∈ entries, Given pair) {mark : Char}
    (known : mark ∈ Value.marks) (other : mark ≠ ',') : mark ∉ Property.write entries := by
  have apart : Text.Free Value.marks ": ".toList := by decide
  have keys : ∀ key ∈ Property.known, Text.Free Value.marks key := by decide
  have between := apart mark known
  have space : mark ≠ ' ' := fun same => between (same ▸ by decide)
  apply Property.not_mem_write other space
  intro pair member
  obtain ⟨phrase, value⟩ := (given pair member).value
  have inKey : mark ∉ pair.1 := keys pair.1 (given pair member).key mark known
  have inValue : mark ∉ pair.2 := value ▸ phrase.free mark known
  simp only [Property.writePair, List.mem_append, inKey, between, inValue, or_self,
    not_false_eq_true]

theorem free_bracketed (given : ∀ pair ∈ entries, Given pair) :
    Text.Free Caption.marks (bracketed entries) := by
  have inside : Text.Free Caption.marks (Property.write entries) := by
    intro mark known
    have comma : mark ≠ ',' := by
      rintro rfl
      exact absurd known (by decide)
    exact not_mem_write given (List.mem_cons_of_mem ',' (List.mem_cons_of_mem ']' known)) comma
  have opening : Text.Free Caption.marks " [".toList := by decide
  have closing : Text.Free Caption.marks [']'] := by decide
  rw [bracketed]
  split
  · exact fun _ _ => List.not_mem_nil
  · exact (opening.append inside).append closing

/-! ### Declarations -/

/-- What may stand at the end of a declaration: the reader of its kind accepts it there, and nothing
before it that begins with a visible character other than a brace. -/
structure Ends (closing : Text → Bool) (ending : Text) : Prop where
  accepted : closing ending = true
  unbracketed : Declaration.bracketed? ending = none
  early : ∀ {rest more : Text} {c : Char},
    Text.trimLeft rest = c :: more → c ≠ '\x7b' → closing rest = false

theorem ends_node : Ends Text.atEnd [] := by
  refine ⟨rfl, rfl, ?_⟩
  intro rest more c start _
  have other : rest ≠ [] ∧ rest ≠ ['\n'] := by
    constructor
    all_goals
      rintro rfl
      contradiction
  simp [Text.atEnd, other]

theorem ends_group : Ends Declaration.opensGroup " \x7b".toList := by
  refine ⟨by decide, by decide, ?_⟩
  intro rest more c start other
  rw [Declaration.opensGroup, start]
  split
  · rename_i same
    exact absurd (List.cons.inj same).1 other
  · rfl

theorem Ends.tail?_eq_none {closing : Text → Bool} {ending rest more : Text} {c : Char}
    (ends : Ends closing ending) (start : Text.trimLeft rest = c :: more) (bracket : c ≠ '[')
    (brace : c ≠ '\x7b') : Declaration.tail? closing rest = none := by
  have unbracketed : Declaration.bracketed? rest = none := by
    rw [Declaration.bracketed?, start]
    split
    · rename_i same
      exact absurd (List.cons.inj same).1 bracket
    · rfl
  simp [Declaration.tail?, unbracketed, ends.early start brace]

theorem Ends.tail?_bracketed {closing : Text → Bool} {ending : Text} (ends : Ends closing ending)
    (given : ∀ pair ∈ entries, Given pair) :
    ∃ body, Declaration.tail? closing (bracketed entries ++ ending) = some body ∧
      Property.read (body.getD []) = Table.ofList entries := by
  -- Without properties there are no brackets, and the empty body has none either.
  by_cases empty : entries = []
  · refine ⟨none, ?_, ?_⟩
    · simp [bracketed, empty, Declaration.tail?, ends.unbracketed, ends.accepted]
    · rw [empty]
      rfl
  · refine ⟨some (Property.write entries), ?_, ?_⟩
    · have free : ']' ∉ Property.write entries := not_mem_write given (by decide) (by decide)
      have shape : bracketed entries ++ ending =
          [' '] ++ '[' :: (Property.write entries ++ ']' :: ending) := by
        simp [bracketed, empty]
      have inside : Declaration.bracketed? (bracketed entries ++ ending) =
          some (Property.write entries, ending) := by
        rw [shape, Declaration.bracketed?_append Text.blanks_space free]
      simp [Declaration.tail?, inside, ends.accepted]
    · exact Property.read_write fun pair member => (given pair member).writable

/-- A declaration is read back: its label without the quotes, and its properties. -/
theorem Ends.read? {closing : Text → Bool} {ending : Text} (ends : Ends closing ending)
    (name : Name) (given : ∀ pair ∈ entries, Given pair) :
    Declaration.read? closing (name.written ++ (bracketed entries ++ ending)) =
      some ⟨name.label.text, Table.ofList entries⟩ := by
  obtain ⟨body, accepted, properties⟩ := ends.tail?_bracketed given
  have found : Text.upTo? (Declaration.tail? closing)
      (name.written ++ (bracketed entries ++ ending)) = some (name.written, body) := by
    apply Text.upTo?_append name.written_ne_nil _ accepted
    · -- Nothing is accepted inside the name: behind its blanks stands one of its own characters.
      intro front back joined _ shown
      obtain ⟨c, member, more, start⟩ := (joined.symm ▸ name.written_trimmed).trimLeft_append shown
        (bracketed entries ++ ending)
      have inside : c ∈ name.written := joined ▸ List.mem_append_right front member
      apply ends.tail?_eq_none start
      · exact ne_of_mem_of_not_mem inside (name.not_mem_written (by decide) (by decide))
      · exact ne_of_mem_of_not_mem inside (name.not_mem_written (by decide) (by decide))
    · exact name.not_mem_written (by decide) (by decide)
  have trimmed : Text.trim name.written = name.written := name.written_trimmed
  simp only [Declaration.read?, found, Option.map_some, properties, trimmed,
    name.stripQuotes_written]

theorem head_bracketed (entries : List (Text × Text)) (ending : Text)
    (broken : ∀ c ∈ ending.head?, c = ' ') :
    ∀ c ∈ (bracketed entries ++ ending).head?, c = ' ' := by
  by_cases empty : entries = []
  · simpa [bracketed, empty] using broken
  · simp [bracketed, empty]

/-- A declaration without an ending is a name, or it ends with a bracket. -/
theorem declaration_cases (name : Name) (entries : List (Text × Text)) :
    name.written ++ bracketed entries = name.written ∨
      ∃ middle, name.written ++ bracketed entries = name.written ++ middle ++ [']'] := by
  by_cases empty : entries = []
  · exact .inl (by simp [bracketed, empty])
  · exact .inr ⟨" [".toList ++ Property.write entries, by simp [bracketed, empty]⟩

theorem getLast?_declaration (name : Name) (entries : List (Text × Text)) :
    (name.written ++ bracketed entries).getLast? ≠ some '\x7b' := by
  rcases declaration_cases name entries with alone | ⟨middle, joined⟩
  · rw [alone]
    intro found
    exact name.not_mem_written (by decide) (by decide) (List.mem_of_getLast? found)
  · rw [joined, List.getLast?_concat]
    decide

theorem trimmed_declaration (name : Name) (entries : List (Text × Text)) :
    Text.Trimmed (name.written ++ bracketed entries) := by
  rcases declaration_cases name entries with alone | ⟨middle, joined⟩
  · rw [alone]
    exact name.written_trimmed
  · rw [joined]
    exact name.written_trimmed.append (Text.trimmed_singleton (by decide)) name.written_ne_nil
      (List.cons_ne_nil _ _) middle

theorem free_declaration (name : Name) (given : ∀ pair ∈ entries, Given pair) :
    Text.Free Caption.marks (name.written ++ bracketed entries) :=
  name.free_written.append (free_bracketed given)

end Flowchart.Draft
