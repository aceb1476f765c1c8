import Flowchart.Proofs.Except
import Flowchart.Text.Utf8

/-!
Bytes and text. Reading bytes gives a text only if they are what writing that text gives, and then
always, so a text that is read and written again is the same bytes. What a file can lose on the way
is the spelling of its line breaks, and nothing if it has no carriage return.
-/
namespace Flowchart

namespace Utf8

/-- The bytes of a character by its number. -/
theorem encode_ofNat {n : Nat} (valid : n.isValidChar) :
    String.utf8EncodeChar (Char.ofNat n) =
      if n ≤ 127 then [UInt8.ofNat n]
      else if n ≤ 2047 then [UInt8.ofNat (n / 64 % 32 + 192), UInt8.ofNat (n % 64 + 128)]
      else if n ≤ 65535 then
        [UInt8.ofNat (n / 4096 % 16 + 224), UInt8.ofNat (n / 64 % 64 + 128),
          UInt8.ofNat (n % 64 + 128)]
      else
        [UInt8.ofNat (n / 262144 % 8 + 240), UInt8.ofNat (n / 4096 % 64 + 128),
          UInt8.ofNat (n / 64 % 64 + 128), UInt8.ofNat (n % 64 + 128)] := by
  have number : (Char.ofNat n).val.toNat = n := by
    rw [Char.ofNat, dif_pos valid]
    exact UInt32.toNat_ofNatLT
  rw [String.utf8EncodeChar, number]

theorem ofNat_eq {n : Nat} {b : UInt8} (same : n % 256 = b.toNat) : UInt8.ofNat n = b := by
  apply UInt8.toNat_inj.mp
  rw [UInt8.toNat_ofNat']
  exact same

theorem extend_succ {allowed : UInt8 → Bool} {value used needed : Nat} {bytes : Bytes} {n : Nat}
    (read : extend allowed value used (needed + 1) bytes = .ok n) :
    ∃ byte rest, bytes = byte :: rest ∧ allowed byte = true ∧
      extend isContinuation (value * 64 + byte.toNat % 64) (used + 1) needed rest = .ok n := by
  cases bytes with
  | nil => contradiction
  | cons byte rest =>
    rw [extend] at read
    split at read
    · rename_i good
      exact ⟨byte, rest, rfl, good, read⟩
    · contradiction

theorem isContinuation_iff {byte : UInt8} :
    isContinuation byte = true ↔ 128 ≤ byte.toNat ∧ byte.toNat < 192 := by
  simp [isContinuation, UInt8.le_iff_toNat_le, UInt8.lt_iff_toNat_lt]

theorem maySecond_iff {lead byte : UInt8} :
    maySecond lead byte = true ↔ (128 ≤ byte.toNat ∧ byte.toNat < 192) ∧
      (lead.toNat = 224 → 160 ≤ byte.toNat) ∧ (lead.toNat = 237 → byte.toNat < 160) ∧
      (lead.toNat = 240 → 144 ≤ byte.toNat) ∧ (lead.toNat = 244 → byte.toNat < 144) := by
  simp only [maySecond, Bool.and_eq_true, isContinuation_iff, Bool.or_eq_true, bne_iff_ne, ne_eq,
    decide_eq_true_eq, UInt8.le_iff_toNat_le, UInt8.lt_iff_toNat_lt, ← UInt8.toNat_inj,
    UInt8.reduceToNat]
  omega

theorem encode_two {lead second : UInt8} (low : 194 ≤ lead.toNat) (high : lead.toNat < 224)
    (good : maySecond lead second = true) :
    String.utf8EncodeChar (Char.ofNat (lead.toNat % 32 * 64 + second.toNat % 64)) =
      [lead, second] := by
  have bounds := maySecond_iff.mp good
  rw [encode_ofNat (Or.inl (by omega)), if_neg (by omega), if_pos (by omega),
    ofNat_eq (b := lead) (by omega), ofNat_eq (b := second) (by omega)]

theorem encode_three {lead second third : UInt8} (low : 224 ≤ lead.toNat)
    (high : lead.toNat < 240) (good : maySecond lead second = true)
    (follows : isContinuation third = true) :
    String.utf8EncodeChar
        (Char.ofNat ((lead.toNat % 16 * 64 + second.toNat % 64) * 64 + third.toNat % 64)) =
      [lead, second, third] := by
  have bounds := maySecond_iff.mp good
  have inside := isContinuation_iff.mp follows
  have valid :
      ((lead.toNat % 16 * 64 + second.toNat % 64) * 64 + third.toNat % 64).isValidChar := by
    simp only [Nat.isValidChar]
    omega
  rw [encode_ofNat valid, if_neg (by omega), if_neg (by omega), if_pos (by omega),
    ofNat_eq (b := lead) (by omega), ofNat_eq (b := second) (by omega),
    ofNat_eq (b := third) (by omega)]

theorem encode_four {lead second third fourth : UInt8} (low : 240 ≤ lead.toNat)
    (high : lead.toNat < 245) (good : maySecond lead second = true)
    (follows : isContinuation third = true) (ends : isContinuation fourth = true) :
    String.utf8EncodeChar (Char.ofNat
        (((lead.toNat % 8 * 64 + second.toNat % 64) * 64 + third.toNat % 64) * 64 +
          fourth.toNat % 64)) =
      [lead, second, third, fourth] := by
  have bounds := maySecond_iff.mp good
  have inside := isContinuation_iff.mp follows
  have last := isContinuation_iff.mp ends
  have valid : (((lead.toNat % 8 * 64 + second.toNat % 64) * 64 + third.toNat % 64) * 64 +
      fourth.toNat % 64).isValidChar := by
    simp only [Nat.isValidChar]
    omega
  rw [encode_ofNat valid, if_neg (by omega), if_neg (by omega), if_neg (by omega),
    ofNat_eq (b := lead) (by omega), ofNat_eq (b := second) (by omega),
    ofNat_eq (b := third) (by omega), ofNat_eq (b := fourth) (by omega)]

/-- A character that is read has the bytes that it was read from. -/
theorem encode_of_character {lead : UInt8} {rest : Bytes} {c : Char} {more : Nat}
    (read : character lead rest = .ok (c, more)) :
    lead :: rest = String.utf8EncodeChar c ++ rest.drop more := by
  simp only [character, UInt8.lt_iff_toNat_lt, UInt8.reduceToNat] at read
  split at read
  · obtain ⟨rfl, rfl⟩ := Prod.mk.inj (Except.ok.inj read)
    rw [encode_ofNat (Or.inl (by omega)), if_pos (by omega), UInt8.ofNat_toNat]
    rfl
  split at read
  · contradiction
  split at read
  · obtain ⟨value, extended, same⟩ := ok_of_map read
    obtain ⟨rfl, rfl⟩ := Prod.mk.inj same
    obtain ⟨second, rest, rfl, good, last⟩ := extend_succ extended
    rw [← Except.ok.inj last, encode_two (by omega) (by omega) good]
    rfl
  split at read
  · obtain ⟨value, extended, same⟩ := ok_of_map read
    obtain ⟨rfl, rfl⟩ := Prod.mk.inj same
    obtain ⟨second, rest, rfl, good, extended⟩ := extend_succ extended
    obtain ⟨third, rest, rfl, follows, last⟩ := extend_succ extended
    rw [← Except.ok.inj last, encode_three (by omega) (by omega) good follows]
    rfl
  split at read
  · obtain ⟨value, extended, same⟩ := ok_of_map read
    obtain ⟨rfl, rfl⟩ := Prod.mk.inj same
    obtain ⟨second, rest, rfl, good, extended⟩ := extend_succ extended
    obtain ⟨third, rest, rfl, follows, extended⟩ := extend_succ extended
    obtain ⟨fourth, rest, rfl, ends, last⟩ := extend_succ extended
    rw [← Except.ok.inj last, encode_four (by omega) (by omega) good follows ends]
    rfl
  · contradiction

theorem extend_cons {allowed : UInt8 → Bool} {byte : UInt8} (good : allowed byte = true)
    (value used needed : Nat) (rest : Bytes) :
    extend allowed value used (needed + 1) (byte :: rest) =
      extend isContinuation (value * 64 + byte.toNat % 64) (used + 1) needed rest := by
  rw [extend, if_pos good]

theorem character_two {lead second : UInt8} (low : 194 ≤ lead.toNat) (high : lead.toNat < 224)
    (good : maySecond lead second = true) (rest : Bytes) :
    character lead (second :: rest) =
      .ok (Char.ofNat (lead.toNat % 32 * 64 + second.toNat % 64), 1) := by
  simp only [character, UInt8.lt_iff_toNat_lt, UInt8.reduceToNat]
  rw [if_neg (by omega), if_neg (by omega), if_pos (by omega), extend_cons good]
  rfl

theorem character_three {lead second third : UInt8} (low : 224 ≤ lead.toNat)
    (high : lead.toNat < 240) (good : maySecond lead second = true)
    (follows : isContinuation third = true) (rest : Bytes) :
    character lead (second :: third :: rest) =
      .ok (Char.ofNat ((lead.toNat % 16 * 64 + second.toNat % 64) * 64 + third.toNat % 64), 2) := by
  simp only [character, UInt8.lt_iff_toNat_lt, UInt8.reduceToNat]
  rw [if_neg (by omega), if_neg (by omega), if_neg (by omega), if_pos (by omega),
    extend_cons good, extend_cons follows]
  rfl

theorem character_four {lead second third fourth : UInt8} (low : 240 ≤ lead.toNat)
    (high : lead.toNat < 245) (good : maySecond lead second = true)
    (follows : isContinuation third = true) (ends : isContinuation fourth = true) (rest : Bytes) :
    character lead (second :: third :: fourth :: rest) =
      .ok (Char.ofNat (((lead.toNat % 8 * 64 + second.toNat % 64) * 64 + third.toNat % 64) * 64 +
        fourth.toNat % 64), 3) := by
  simp only [character, UInt8.lt_iff_toNat_lt, UInt8.reduceToNat]
  rw [if_neg (by omega), if_neg (by omega), if_neg (by omega), if_neg (by omega),
    if_pos (by omega), extend_cons good, extend_cons follows, extend_cons ends]
  rfl

/-- The bytes of a character are read as that character, whatever stands behind them. -/
theorem character_encode (c : Char) (behind : Bytes) :
    ∃ lead more, String.utf8EncodeChar c = lead :: more ∧
      character lead (more ++ behind) = .ok (c, more.length) := by
  have scalar : c.toNat < 0xD800 ∨ 0xDFFF < c.toNat ∧ c.toNat < 0x110000 := c.valid
  have number {n : Nat} (small : n < 256) : (UInt8.ofNat n).toNat = n := by
    simp [Nat.mod_eq_of_lt small]
  have same {n : Nat} (value : n = c.toNat) : Char.ofNat n = c := by rw [value, Char.ofNat_toNat]
  have spelled := encode_ofNat (n := c.toNat) c.valid
  rw [Char.ofNat_toNat] at spelled
  split at spelled
  · have lead := number (n := c.toNat) (by omega)
    refine ⟨_, _, spelled, ?_⟩
    simp only [character, UInt8.lt_iff_toNat_lt, UInt8.reduceToNat, lead]
    rw [if_pos (by omega), Char.ofNat_toNat]
    rfl
  split at spelled
  · have lead := number (n := c.toNat / 64 % 32 + 192) (by omega)
    have second := number (n := c.toNat % 64 + 128) (by omega)
    refine ⟨_, _, spelled, ?_⟩
    rw [List.cons_append, character_two (by omega) (by omega) (maySecond_iff.mpr (by omega)),
      same (by omega)]
    rfl
  split at spelled
  · have lead := number (n := c.toNat / 4096 % 16 + 224) (by omega)
    have second := number (n := c.toNat / 64 % 64 + 128) (by omega)
    have third := number (n := c.toNat % 64 + 128) (by omega)
    refine ⟨_, _, spelled, ?_⟩
    rw [List.cons_append, List.cons_append, character_three (by omega) (by omega)
      (maySecond_iff.mpr (by omega)) (isContinuation_iff.mpr (by omega)), same (by omega)]
    rfl
  · have lead := number (n := c.toNat / 262144 % 8 + 240) (by omega)
    have second := number (n := c.toNat / 4096 % 64 + 128) (by omega)
    have third := number (n := c.toNat / 64 % 64 + 128) (by omega)
    have fourth := number (n := c.toNat % 64 + 128) (by omega)
    refine ⟨_, _, spelled, ?_⟩
    rw [List.cons_append, List.cons_append, List.cons_append, character_four (by omega) (by omega)
      (maySecond_iff.mpr (by omega)) (isContinuation_iff.mpr (by omega))
      (isContinuation_iff.mpr (by omega)), same (by omega)]
    rfl

theorem decodeFrom_toUtf8 (position : Nat) (text : Text) :
    decodeFrom position text.toUtf8 = .ok text := by
  induction text generalizing position with
  | nil => rw [Text.toUtf8, List.flatMap_nil, decodeFrom]
  | cons c rest ih =>
    obtain ⟨lead, more, spelled, read⟩ := character_encode c (Text.toUtf8 rest)
    have bytes : Text.toUtf8 (c :: rest) = lead :: (more ++ Text.toUtf8 rest) := by
      rw [Text.toUtf8, List.flatMap_cons, spelled, List.cons_append]
      rfl
    rw [bytes, decodeFrom, read]
    simp only [List.drop_left, ih]
    rfl

theorem toUtf8_of_decodeFrom {position : Nat} {bytes : Bytes} {text : Text}
    (read : decodeFrom position bytes = .ok text) : text.toUtf8 = bytes := by
  induction position, bytes using decodeFrom.induct generalizing text with
  | case1 position =>
    rw [decodeFrom] at read
    rw [← Except.ok.inj read]
    rfl
  | case2 position lead rest length reason stopped =>
    rw [decodeFrom, stopped] at read
    contradiction
  | case3 position lead rest c more found ih =>
    rw [decodeFrom, found] at read
    obtain ⟨behind, later, rfl⟩ := ok_of_map read
    rw [encode_of_character found, ← ih later]
    rfl

theorem decode_toUtf8 (text : Text) : decode text.toUtf8 = .ok text := decodeFrom_toUtf8 0 text

/-- Nothing but the bytes of a text is read as that text. -/
theorem decode_eq_ok {bytes : Bytes} {text : Text} :
    decode bytes = .ok text ↔ bytes = text.toUtf8 := by
  constructor
  · intro read
    exact (toUtf8_of_decodeFrom read).symm
  · rintro rfl
    exact decode_toUtf8 text

end Utf8

/-! ### Line breaks -/

namespace Text

theorem normalizeBreaks_of_free {text : Text} (free : '\r' ∉ text) :
    normalizeBreaks text = text := by
  induction text using normalizeBreaks.induct with
  | case1 => rfl
  | case2 rest ih => exact absurd List.mem_cons_self free
  | case3 c rest pair ih =>
    obtain ⟨other, later⟩ := not_or.mp (mt List.mem_cons.mpr free)
    rw [normalizeBreaks, ih later, if_neg (Ne.symm other)]
    exact pair

theorem not_mem_normalizeBreaks (text : Text) : '\r' ∉ normalizeBreaks text := by
  induction text using normalizeBreaks.induct with
  | case1 => exact List.not_mem_nil
  | case2 rest ih => exact List.not_mem_cons_of_ne_of_not_mem (by decide) ih
  | case3 c rest pair ih =>
    rw [normalizeBreaks]
    · refine List.not_mem_cons_of_ne_of_not_mem ?_ ih
      split
      · decide
      · rename_i other
        exact Ne.symm other
    · exact pair

theorem normalizeBreaks_eq_self {text : Text} : normalizeBreaks text = text ↔ '\r' ∉ text := by
  constructor
  · intro same
    rw [← same]
    exact not_mem_normalizeBreaks text
  · exact normalizeBreaks_of_free

end Text

theorem Utf8.decodeLines_toUtf8 (text : Text) :
    decodeLines text.toUtf8 = .ok (Text.normalizeBreaks text) := by
  rw [decodeLines, decode_toUtf8]
  rfl

theorem Utf8.decodeLines_eq_ok {bytes : Bytes} {shown : Text} :
    decodeLines bytes = .ok shown ↔
      ∃ text, bytes = Text.toUtf8 text ∧ shown = Text.normalizeBreaks text := by
  constructor
  · intro read
    obtain ⟨text, decoded, rfl⟩ := ok_of_map read
    exact ⟨text, decode_eq_ok.mp decoded, rfl⟩
  · rintro ⟨text, rfl, rfl⟩
    exact decodeLines_toUtf8 text

end Flowchart
