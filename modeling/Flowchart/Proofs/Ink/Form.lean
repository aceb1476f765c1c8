import Flowchart.Ink.Form
import Flowchart.Proofs.Text.Pieces
import Flowchart.Proofs.Text.Utf8

/-!
Reading form-encoded queries. Whatever the names and values hold, encoding leaves no mark of the
form in them, so the fields come apart where they were put together.
-/
namespace Flowchart.Form

/-- The number of a hexadecimal digit in either case. -/
def hexValue? (c : Char) : Option Nat := "0123456789abcdef".toList.idxOf? c.toLower

/-- A plus sign is a space, and two hexadecimal digits behind a percent sign are a byte. A percent
sign without them stands for itself. -/
def unescape : Text → Bytes
  | [] => []
  | '%' :: high :: low :: rest =>
    match hexValue? high, hexValue? low with
    | some first, some second => UInt8.ofNat (first * 16 + second) :: unescape rest
    | _, _ => String.utf8EncodeChar '%' ++ unescape (high :: low :: rest)
  | c :: rest => String.utf8EncodeChar (if c = '+' then ' ' else c) ++ unescape rest

def decode (text : Text) : Except Utf8.Error Text := Utf8.decode (unescape text)

/-- A field without an equals sign has an empty value. -/
def field (piece : Text) : Except Utf8.Error (Text × Text) := do
  let (name, value) := (Text.cutAt? '=' piece).getD (piece, [])
  return (← decode name, ← decode value)

def fields (query : Text) : Except Utf8.Error (List (Text × Text)) :=
  ((query.splitOn '&').filter (!·.isEmpty)).mapM field

/-- The characters that encoding leaves. -/
def isSign (c : Char) : Bool :=
  c.isAlphanum || c == '_' || c == '.' || c == '-' || c == '~' || c == '+' || c == '%'

theorem hexValue?_hexDigit (n : Nat) : hexValue? (hexDigit n) = some (n % 16) := by
  have table : ∀ m < 16, hexValue? ("0123456789ABCDEF".toList.getD m '0') = some m := by
    decide +kernel
  exact table (n % 16) (Nat.mod_lt n (by decide))

theorem isSign_encodeByte (byte : UInt8) : (encodeByte byte).all isSign = true := by
  have hex (n : Nat) : isSign (hexDigit n) = true := by
    have table : ∀ m < 16, isSign ("0123456789ABCDEF".toList.getD m '0') = true := by
      decide +kernel
    exact table (n % 16) (Nat.mod_lt n (by decide))
  rw [encodeByte]
  split
  · rename_i plain
    have shown := (Bool.and_eq_true_iff.mp plain).2
    simp only [List.all_cons, List.all_nil, Bool.and_true, isSign, shown, Bool.true_or]
  split
  · rfl
  · have percent : isSign '%' = true := rfl
    simp [hex, percent]

theorem isSign_encode (text : Text) : (encode text).all isSign = true := by
  rw [encode, List.all_flatMap]
  exact List.all_eq_true.mpr fun byte _ => isSign_encodeByte byte

theorem not_mem_encode {mark : Char} (other : isSign mark = false) (text : Text) :
    mark ∉ encode text := by
  intro inside
  rw [List.all_eq_true.mp (isSign_encode text) mark inside] at other
  contradiction

theorem unescape_cons {c : Char} (plain : c ≠ '%') (rest : Text) :
    unescape (c :: rest) = String.utf8EncodeChar (if c = '+' then ' ' else c) ++ unescape rest := by
  rw [unescape]
  intro high low behind same
  exact absurd same plain

/-- The byte that was encoded is read first. -/
theorem unescape_encodeByte (byte : UInt8) (rest : Text) :
    unescape (encodeByte byte ++ rest) = byte :: unescape rest := by
  have bound := byte.toNat_lt
  rw [encodeByte]
  split
  · rename_i plain
    obtain ⟨ascii, shown⟩ := Bool.and_eq_true_iff.mp plain
    have small : byte.toNat < 128 := UInt8.lt_iff_toNat_lt.mp (of_decide_eq_true ascii)
    have percent : Char.ofNat byte.toNat ≠ '%' := by
      intro same
      rw [same] at shown
      contradiction
    have plus : Char.ofNat byte.toNat ≠ '+' := by
      intro same
      rw [same] at shown
      contradiction
    rw [List.singleton_append, unescape_cons percent, if_neg plus,
      Utf8.encode_ofNat (Or.inl (by omega)), if_pos (by omega), UInt8.ofNat_toNat]
    rfl
  split
  · rename_i space
    rw [space]
    exact unescape_cons (by decide) rest
  · have number : UInt8.ofNat (byte.toNat / 16 % 16 * 16 + byte.toNat % 16) = byte :=
      Utf8.ofNat_eq (by omega)
    simp [unescape, hexValue?_hexDigit, number]

theorem unescape_encode (text : Text) : unescape (encode text) = text.toUtf8 := by
  rw [encode]
  induction Text.toUtf8 text with
  | nil => rfl
  | cons byte rest ih => rw [List.flatMap_cons, unescape_encodeByte, ih]

theorem decode_encode (text : Text) : decode (encode text) = .ok text := by
  rw [decode, unescape_encode, Utf8.decode_toUtf8]

/-- A name and its value as they stand in a query. -/
def written (pair : Text × Text) : Text := encode pair.1 ++ '=' :: encode pair.2

theorem field_written (pair : Text × Text) : field (written pair) = .ok pair := by
  have cut : Text.cutAt? '=' (written pair) = some (encode pair.1, encode pair.2) :=
    Text.cutAt?_append (not_mem_encode rfl pair.1) (encode pair.2)
  simp only [field, cut, Option.getD_some, decode_encode]
  rfl

theorem not_mem_written (pair : Text × Text) : '&' ∉ written pair := by
  have first : '&' ∉ encode pair.1 := not_mem_encode rfl pair.1
  have second : '&' ∉ encode pair.2 := not_mem_encode rfl pair.2
  simp [written, first, second]

/-- The fields of a query are those it was made of. -/
theorem fields_query (pairs : List (Text × Text)) : fields (query pairs) = .ok pairs := by
  have shown : query pairs = ['&'].intercalate (pairs.map written) := rfl
  have pieces : ((query pairs).splitOn '&').filter (!·.isEmpty) = pairs.map written := by
    cases pairs with
    | nil => rfl
    | cons first rest =>
      rw [shown, List.splitOn_intercalate '&' _ (by simp)]
      · exact List.filter_eq_self.mpr (List.forall_mem_map.mpr fun pair _ => by simp [written])
      · exact List.forall_mem_map.mpr fun pair _ => not_mem_written pair
  have each : field ∘ written = pure := funext field_written
  rw [fields, pieces, List.mapM_map, each, List.mapM_pure, List.map_id']
  rfl

end Flowchart.Form
