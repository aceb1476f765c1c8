import Flowchart.Text.Basic

/-!
Numbers as text: the fewest decimal digits that read back as the same double, and among those the
nearest. All comparisons are between natural numbers.
-/
namespace Flowchart.Decimal

/-- The number `digits` times ten to the power of `exponent`. -/
structure Numeral where
  digits : Nat
  exponent : Int
  deriving DecidableEq, Repr

/-- The reals that round to one finite positive double. The double and the ends are counted in units
of two to the power of `unit`; the ends belong to the cell if it is `closed`. -/
structure Cell where
  low : Nat
  value : Nat
  high : Nat
  unit : Int
  closed : Bool
  deriving DecidableEq, Repr

/-- Two to the power of 52: how many fractions there are in the bits of a double. -/
def fractions : Nat := 0x10000000000000

/-- Two to the power of 63: the bits from here on belong to a negative double. -/
def signBit : Nat := 0x8000000000000000

/-- A power of a base, or one if the exponent is negative. -/
def power (base : Nat) (exponent : Int) : Nat := base.pow exponent.toNat

namespace Cell

/-- Below a power of two the next double is only half as far away as above it. -/
def ofBits (bits : UInt64) : Cell :=
  let field := (bits.toNat / fractions) % 2048
  let fraction := bits.toNat % fractions
  let significand := if field = 0 then fraction else fractions + fraction
  { low := 4 * significand - (if fraction = 0 ∧ 1 < field then 1 else 2)
    value := 4 * significand
    high := 4 * significand + 2
    unit := (max field 1 : Nat) - 1077
    closed := significand % 2 = 0 }

/-- Both sides of the comparison of `steps` times ten to the power of `grid` with `units` units. -/
def sides (cell : Cell) (grid : Int) (steps units : Nat) : Nat × Nat :=
  (steps * power 10 grid * power 2 (-cell.unit), units * power 2 cell.unit * power 10 (-grid))

def contains (cell : Cell) (numeral : Numeral) : Bool :=
  let (left, low) := cell.sides numeral.exponent numeral.digits cell.low
  let (_, high) := cell.sides numeral.exponent numeral.digits cell.high
  if cell.closed then low ≤ left && left ≤ high else low < left && left < high

/-- How many steps of ten to the power of `grid` the double holds. -/
def floor (cell : Cell) (grid : Int) : Nat :=
  let (step, value) := cell.sides grid 1 cell.value
  value / step

/-- The power of ten just above the double. -/
def magnitude (cell : Cell) : Int := (Nat.toDigits 10 (cell.floor (-400))).length - 400

/-- The numeral of the grid that is nearest to the double, of the two beside it; a tie goes to the
even one. -/
def nearest (cell : Cell) (grid : Int) : List Numeral :=
  let below := cell.floor grid
  let (twice, value) := cell.sides grid (2 * below + 1) (2 * cell.value)
  let first := if value < twice ∨ (value = twice ∧ below % 2 = 0) then below else below + 1
  let second := if first = below then below + 1 else below
  [⟨first, grid⟩, ⟨second, grid⟩]

/-- The first grid with a numeral in the cell, from one digit on; seventeen digits are always
enough. -/
def shortest (cell : Cell) : Numeral :=
  ((List.range 17).findSome? fun (extra : Nat) =>
    (cell.nearest (cell.magnitude - (extra + 1))).find? cell.contains).getD
      ⟨cell.floor (cell.magnitude - 17), cell.magnitude - 17⟩

end Cell

/-- Without zeros at the end of its digits. -/
def stripZeros (digits : Nat) (exponent : Int) : Numeral :=
  if digits ≠ 0 ∧ digits % 10 = 0 then stripZeros (digits / 10) (exponent + 1)
  else ⟨digits, exponent⟩
termination_by digits
decreasing_by omega

/-- An exponent with its sign, in at least `width` digits. -/
def exponentText (width : Nat) (exponent : Int) : Text :=
  let digits := Text.ofNat exponent.natAbs
  ['e', if exponent < 0 then '-' else '+'] ++ List.replicate (width - digits.length) '0' ++ digits

/-- A number from 0.0001 up to 16 digits before the point is written out, with at least one digit on
either side of the point; any other one has an exponent. -/
def layout (width : Nat) (numeral : Numeral) : Text :=
  let digits := Text.ofNat numeral.digits
  let point : Int := digits.length + numeral.exponent
  if point ≤ -4 ∨ 16 < point then
    digits.take 1 ++ (if digits.length = 1 then [] else '.' :: digits.drop 1) ++
      exponentText width (point - 1)
  else if point ≤ 0 then ['0', '.'] ++ List.replicate (-point).toNat '0' ++ digits
  else if digits.length ≤ point then
    digits ++ List.replicate (point.toNat - digits.length) '0' ++ ['.', '0']
  else digits.take point.toNat ++ '.' :: digits.drop point.toNat

/-- The text of a double; `width` is the least number of digits of an exponent. -/
def text (width : Nat) (number : Float) : Text :=
  if number.isNaN then "nan".toList
  else
    let bits := number.toBits
    let magnitude :=
      if number.isInf then "inf".toList
      else if number == 0 then "0.0".toList
      else
        let numeral := (Cell.ofBits bits).shortest
        layout width (stripZeros numeral.digits numeral.exponent)
    if bits.toNat < signBit then magnitude else '-' :: magnitude

end Flowchart.Decimal
