import Flowchart.Ink
import Flowchart.Proofs.Ink.Base64
import Flowchart.Proofs.Ink.Form

/-!
What an address tells. The marks that part an address are in none of its parts, so the markup and
the fields can be read off it, and different arguments have different addresses.
-/
namespace Flowchart.Ink

variable (markup imageType theme background : Text)

/-- The segment of an address that holds the markup. -/
def segment : Text := Base64.encode markup.toUtf8

def fields : List (Text × Text) :=
  [("type".toList, imageType), ("theme".toList, theme), ("bgColor".toList, background)]

/-- The markup and the fields that an address shows: what stands behind the service up to the first
question mark, and what stands behind that. -/
def read? (url : Text) : Option (Text × List (Text × Text)) := do
  let (front, query) ← Text.cutAt? '?' url
  let bytes ← Base64.decode? (← Text.dropStart? service front)
  let markup ← (Utf8.decode bytes).toOption
  let fields ← (Form.fields query).toOption
  return (markup, fields)

theorem not_mem_front : '?' ∉ service ++ segment markup := by
  have base : '?' ∉ service := by decide
  have signs : '?' ∉ segment markup := by
    intro inside
    have sign := List.all_eq_true.mp (Base64.isSign_encode markup.toUtf8) '?' inside
    contradiction
  simp [base, signs]

theorem read?_address : read? (address markup imageType theme background) =
    some (markup, fields imageType theme background) := by
  have cut : Text.cutAt? '?' (address markup imageType theme background) =
      some (service ++ segment markup, Form.query (fields imageType theme background)) :=
    Text.cutAt?_append (not_mem_front markup) _
  have dropped : Text.dropStart? service (service ++ segment markup) = some (segment markup) :=
    Text.dropStart?_append service (segment markup)
  have decoded : Base64.decode? (segment markup) = some markup.toUtf8 :=
    Base64.decode?_encode markup.toUtf8
  simp only [read?, cut, dropped, decoded, Utf8.decode_toUtf8, Form.fields_query, Except.toOption,
    Option.bind_eq_bind, Option.bind_some]
  rfl

variable {markup imageType theme background}
variable {markup' imageType' theme' background' : Text}

theorem fields_inj : fields imageType theme background = fields imageType' theme' background' ↔
    imageType = imageType' ∧ theme = theme' ∧ background = background' := by
  simp [fields]

theorem address_inj :
    address markup imageType theme background = address markup' imageType' theme' background' ↔
      markup = markup' ∧ imageType = imageType' ∧ theme = theme' ∧ background = background' := by
  constructor
  · intro same
    have shown : some (markup, fields imageType theme background) =
        some (markup', fields imageType' theme' background') := by
      rw [← read?_address, same, read?_address]
    obtain ⟨first, rest⟩ := Prod.mk.inj (Option.some.inj shown)
    exact ⟨first, fields_inj.mp rest⟩
  · rintro ⟨rfl, rfl, rfl, rfl⟩
    rfl

/-- An address is the service, a segment of letters, digits and three marks, a question mark and a
query. Parted at the first question mark and decoded it gives back the markup and exactly the three
fields, so different arguments never have the same address. -/
theorem address_lossless (markup imageType theme background : Text) :
    (∃ segment query,
      address markup imageType theme background = service ++ segment ++ '?' :: query ∧
      segment.all Base64.isSign = true) ∧
    read? (address markup imageType theme background) = some (markup,
      [("type".toList, imageType), ("theme".toList, theme), ("bgColor".toList, background)]) ∧
    ∀ markup' imageType' theme' background' : Text,
      address markup imageType theme background = address markup' imageType' theme' background' ↔
        markup = markup' ∧ imageType = imageType' ∧ theme = theme' ∧ background = background' := by
  have spelled := Base64.isSign_encode markup.toUtf8
  exact ⟨⟨segment markup, Form.query (fields imageType theme background), rfl, spelled⟩,
    read?_address markup imageType theme background, fun _ _ _ _ => address_inj⟩

/-- Marks of the address itself and characters of several bytes, in every place. -/
example : read? (address "é?=".toList "png".toList "a&b=c%+ d".toList []) =
    some ("é?=".toList, [("type".toList, "png".toList), ("theme".toList, "a&b=c%+ d".toList),
      ("bgColor".toList, [])]) := by
  decide +kernel

end Flowchart.Ink
