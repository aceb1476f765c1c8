import Flowchart.Ink.Base64
import Flowchart.Proofs.Text.Utf8

/-!
Reading Base64. Four digits are the bits of three bytes; a last group of one or two bytes is filled
up with padding.
-/
namespace Flowchart.Base64

/-- The six bits of a digit. -/
def value? (c : Char) : Option Nat := alphabet.idxOf? c

def decode? : Text → Option Bytes
  | [] => some []
  | c :: d :: e :: f :: rest => do
    let two := (← value? c) * 64 + (← value? d)
    if e = '=' ∧ f = '=' ∧ rest = [] then some [UInt8.ofNat (two / 16)]
    else do
      let three := two * 64 + (← value? e)
      if f = '=' ∧ rest = [] then some [UInt8.ofNat (three / 1024), UInt8.ofNat (three / 4)]
      else do
        let four := three * 64 + (← value? f)
        let later ← decode? rest
        some (UInt8.ofNat (four / 65536) :: UInt8.ofNat (four / 256) :: UInt8.ofNat four :: later)
  | _ => none

/-- The digits and the padding. -/
def isSign (c : Char) : Bool := c.isAlphanum || c == '_' || c == '-' || c == '='

theorem value?_digit (n : Nat) : value? (digit n) = some (n % 64) := by
  have table : ∀ m < 64, value? (alphabet.getD m 'A') = some m := by decide +kernel
  exact table (n % 64) (Nat.mod_lt n (by decide))

theorem digit_ne_pad (n : Nat) : digit n ≠ '=' := by
  intro same
  have found := value?_digit n
  rw [same] at found
  contradiction

theorem decode?_one (a : UInt8) :
    decode? [digit (a.toNat / 4), digit (a.toNat * 16), '=', '='] = some [a] := by
  have bound := a.toNat_lt
  have byte : UInt8.ofNat ((a.toNat / 4 % 64 * 64 + a.toNat * 16 % 64) / 16) = a :=
    Utf8.ofNat_eq (by omega)
  simp [decode?, value?_digit, byte]

theorem decode?_two (a b : UInt8) :
    let n := a.toNat * 256 + b.toNat
    decode? [digit (n / 1024), digit (n / 16), digit (n * 4), '='] = some [a, b] := by
  intro n
  have first := a.toNat_lt
  have second := b.toNat_lt
  have number : (n / 1024 % 64 * 64 + n / 16 % 64) * 64 + n * 4 % 64 = n * 4 := by omega
  have high : UInt8.ofNat (n * 4 / 1024) = a := Utf8.ofNat_eq (by omega)
  have low : UInt8.ofNat n = b := Utf8.ofNat_eq (by omega)
  simp [decode?, value?_digit, digit_ne_pad, number, high, low]

theorem decode?_three (a b c : UInt8) (rest : Text) :
    let n := (a.toNat * 256 + b.toNat) * 256 + c.toNat
    decode? (digit (n / 262144) :: digit (n / 4096) :: digit (n / 64) :: digit n :: rest) =
      (decode? rest).map fun later => a :: b :: c :: later := by
  intro n
  have first := a.toNat_lt
  have second := b.toNat_lt
  have third := c.toNat_lt
  have number : ((n / 262144 % 64 * 64 + n / 4096 % 64) * 64 + n / 64 % 64) * 64 + n % 64 = n := by
    omega
  have high : UInt8.ofNat (n / 65536) = a := Utf8.ofNat_eq (by omega)
  have middle : UInt8.ofNat (n / 256) = b := Utf8.ofNat_eq (by omega)
  have low : UInt8.ofNat n = c := Utf8.ofNat_eq (by omega)
  rw [Option.map_eq_bind]
  simp only [decode?, value?_digit, Option.bind_eq_bind, Option.bind_some, digit_ne_pad, false_and,
    if_false, number, high, middle, low]
  rfl

/-- What was encoded is read back, whatever the length of the last group. -/
theorem decode?_encode (bytes : Bytes) : decode? (encode bytes) = some bytes := by
  induction bytes using encode.induct with
  | case1 => rfl
  | case2 a => exact decode?_one a
  | case3 a b => exact decode?_two a b
  | case4 a b c rest ih =>
    rw [encode, decode?_three, ih]
    rfl

theorem isSign_digit (n : Nat) : isSign (digit n) = true := by
  have table : ∀ m < 64, isSign (alphabet.getD m 'A') = true := by decide +kernel
  exact table (n % 64) (Nat.mod_lt n (by decide))

theorem isSign_encode (bytes : Bytes) : (encode bytes).all isSign = true := by
  have pad : isSign '=' = true := rfl
  induction bytes using encode.induct with
  | case1 => rfl
  | case2 a => simp [encode, isSign_digit, pad]
  | case3 a b => simp [encode, isSign_digit, pad]
  | case4 a b c rest ih => simp [encode, isSign_digit, ih]

end Flowchart.Base64
