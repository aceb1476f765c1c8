import Flowchart.Proofs.Property

/-!
Property lists as texts and as tables. A list is read from left to right: a comma takes the blanks
behind it, and what stands in front of the first colon of a piece is a key, if anything stands
there. What is read can be written, and what is written is read back.
-/
namespace Flowchart.Property

/-! ### From left to right -/

/-- The pieces between the commas, each comma with the blanks behind it. -/
def pieces : Text → List Text
  | [] => [[]]
  | c :: rest =>
    if c = ',' then [] :: pieces (Text.trimLeft rest) else (pieces rest).modifyHead (c :: ·)
termination_by text => text.length
decreasing_by
  · exact Nat.lt_succ_of_le (List.dropWhile_sublist Text.isBlank).length_le
  · exact Nat.lt_succ_self rest.length

/-- What stands in front of the colon counts as it stands, with its blanks. -/
def keyed? (piece : Text) : Option (Text × Text) :=
  (Text.cutAt? ':' piece).bind fun cut =>
    if cut.1 = [] then none else some (Text.trim cut.1, Text.trim cut.2)

/-- The pairs in a list, one after the other. -/
def pairs (body : Text) : List (Text × Text) := (pieces (Text.trim body)).filterMap keyed?

theorem pieces_eq (text : Text) :
    ∃ head tail, text.splitOn ',' = head :: tail ∧
      pieces text = head :: tail.map Text.trimLeft := by
  fun_induction pieces text with
  | case1 => exact ⟨[], [], rfl, rfl⟩
  | case2 rest ih =>
    obtain ⟨head, tail, split, made⟩ := ih
    obtain ⟨first, later, shown⟩ := List.exists_cons_of_ne_nil (List.splitOn_ne_nil ',' rest)
    rw [Text.splitOn_trimLeft (by decide), shown, List.modifyHead_cons] at split
    obtain ⟨rfl, rfl⟩ := List.cons.inj split
    refine ⟨[], first :: later, ?_, by rw [made, List.map_cons]⟩
    rw [List.splitOn_eq_splitOnP] at shown ⊢
    simp [List.splitOnP_cons_eq_if_modifyHead, shown]
  | case3 c rest other ih =>
    obtain ⟨head, tail, split, made⟩ := ih
    refine ⟨c :: head, tail, ?_, by rw [made, List.modifyHead_cons]⟩
    rw [List.splitOn_eq_splitOnP] at split ⊢
    simp [List.splitOnP_cons_eq_if_modifyHead, split, other]

theorem keyed?_trimLeft (piece : Text) : keyed? (Text.trimLeft piece) = pair? piece := by
  rw [keyed?, pair?, Text.cutAt?_trimLeft (by decide), Option.bind_map]
  simp only [Function.comp_def, Text.trim_trimLeft, List.isEmpty_iff, Text.trim_eq_nil_iff]

/-- Behind its leading blanks a text comes apart into the pieces of its commas alone. -/
theorem filterMap_keyed?_pieces {text : Text} (start : Text.trimLeft text = text) :
    (pieces text).filterMap keyed? = (text.splitOn ',').filterMap pair? := by
  obtain ⟨head, tail, split, made⟩ := pieces_eq text
  have first : Text.trimLeft head = head := by
    have same := Text.splitOn_trimLeft (by decide : Text.isBlank ',' = false) text
    rw [start, split, List.modifyHead_cons] at same
    exact (List.cons.inj same).1.symm
  calc
    (pieces text).filterMap keyed?
    _ = ((head :: tail).map Text.trimLeft).filterMap keyed? := by rw [made, List.map_cons, first]
    _ = (text.splitOn ',').filterMap pair? := by
      rw [List.filterMap_map, split]
      exact congrArg (List.filterMap · _) (funext keyed?_trimLeft)

theorem pair?_append {gap : Text} (blanks : Text.Blanks gap) (piece : Text) :
    pair? (piece ++ gap) = pair? piece := by
  have absent : ':' ∉ gap := fun member => absurd (blanks ':' member) (by decide)
  rw [pair?, pair?, Text.cutAt?_append_of_not_mem absent, Option.bind_map]
  simp only [Function.comp_def, blanks.trim_append]

theorem filterMap_pair?_trim (text : Text) :
    ((Text.trim text).splitOn ',').filterMap pair? = (text.splitOn ',').filterMap pair? := by
  obtain ⟨lead, gap, joined, leading, blanks⟩ := Text.exists_blanks text
  have absent : ',' ∉ gap := fun member => absurd (blanks ',' member) (by decide)
  obtain ⟨front, last, pieces, longer⟩ := Text.exists_splitOn_append absent (Text.trim text)
  have start : Text.trimLeft text = Text.trimLeft (Text.trim text ++ gap) :=
    (congrArg Text.trimLeft joined).trans (leading.trimLeft_append _)
  calc
    ((Text.trim text).splitOn ',').filterMap pair?
    _ = ((Text.trim text ++ gap).splitOn ',').filterMap pair? := by
      rw [pieces, longer, List.filterMap_append, List.filterMap_append, List.filterMap_cons,
        List.filterMap_cons, pair?_append blanks]
    _ = (text.splitOn ',').filterMap pair? := by
      rw [← filterMap_pair?_trimLeft, ← start, filterMap_pair?_trimLeft]

theorem read_eq (body : Text) : read body = Table.ofList (pairs body) := by
  rw [read, pairs, filterMap_keyed?_pieces (Text.trimLeft_trim body), filterMap_pair?_trim]

/-! ### What is read and what is written -/

/-- A list that can be written: no key stands twice. -/
structure Listing where
  entries : Properties
  writable : ∀ entry ∈ entries, Writable entry
  distinct : entries.keys.Nodup

namespace Listing

/-- The list in its brackets. -/
def text (listing : Listing) : Text := '[' :: (write listing.entries ++ [']'])

theorem readBracketed_text (listing : Listing) : readBracketed listing.text = listing.entries := by
  rw [readBracketed, text, List.drop_one, List.tail_cons, List.dropLast_concat,
    read_write listing.writable, Table.ofList_of_nodup listing.distinct]

end Listing

theorem writable_of_pair? {piece : Text} {entry : Text × Text} (comma : ',' ∉ piece)
    (pair : pair? piece = some entry) : Writable entry := by
  obtain ⟨before, after, joined, colon, shown, rfl⟩ := parts_of_pair? pair
  rw [joined, List.mem_append, List.mem_cons] at comma
  constructor
  case key => exact shown
  case key_trimmed => exact Text.trimmed_trim before
  case key_colon => exact mt Text.mem_of_mem_trim colon
  case key_comma => exact fun member => comma (.inl (Text.mem_of_mem_trim member))
  case value_trimmed => exact Text.trimmed_trim after
  case value_comma => exact fun member => comma (.inr (.inr (Text.mem_of_mem_trim member)))

/-- Whatever is read can be written. -/
def Listing.ofBody (body : Text) : Listing where
  entries := read body
  writable := by
    intro entry member
    obtain ⟨piece, known, pair⟩ := List.mem_filterMap.mp (Table.mem_of_mem_ofList member)
    exact writable_of_pair? (Text.not_mem_of_mem_splitOn known) pair
  distinct := Table.nodup_keys_ofList _

/-- What stands between the first and the last character. -/
def unbracketed (text : Text) : Text := (text.drop 1).dropLast

/-- A list that can be written is read back, entry by entry. Whatever a text is, what is read from
it can be written: its keys are those of the pairs in the text, each where it stands first and with
the value it has last. -/
theorem listing_round_trip :
    (∀ listing : Listing, readBracketed listing.text = listing.entries) ∧
      ∀ text : Text, ∃ listing : Listing, listing.entries = readBracketed text ∧
        listing.entries.keys = ((pairs (unbracketed text)).map (·.1)).eraseDups ∧
        (∀ key, listing.entries.get? key =
          ((pairs (unbracketed text)).findRev? (·.1 == key)).map (·.2)) ∧
        readBracketed listing.text = readBracketed text := by
  refine ⟨Listing.readBracketed_text, ?_⟩
  intro text
  have taken : readBracketed text = Table.ofList (pairs (unbracketed text)) :=
    read_eq (unbracketed text)
  refine ⟨Listing.ofBody (unbracketed text), rfl, ?_, ?_, ?_⟩
  · exact (congrArg Table.keys taken).trans (Table.keys_ofList _)
  · intro key
    exact (congrArg (Table.get? · key) taken).trans (Table.get?_ofList _ key)
  · rw [Listing.readBracketed_text]
    rfl

/-- A key without a value counts, a value without a key does not. -/
example : readBracketed "[ b : x:y ,, :z, a:, b:\t2 ,c,]".toList =
    [("b".toList, "2".toList), ("a".toList, [])] := by
  decide

end Flowchart.Property
