import DataAccess.Number.SignedDecimal
/-
**Decimals of bounded size.**  Relational backends transmit exact numerals.  They are held as a
coefficient below `2^96` with up to 28 places; places that do not fit are rounded away, a half going
up.  As a binary64 number the value is put together from its integer part and its fraction and then
rounded back to its places.

Main definitions:

* `FixedDecimal` — a sign, a coefficient and a number of places;
* `FixedDecimal.ofText?` — the decimal that a numeral denotes;
* `FixedDecimal.toBinary64` — a nearby binary64 number.

Main results:

* `FixedDecimal.toBinary64_places` — without a fraction the integer part alone is rounded.
-/

set_option autoImplicit false

namespace DataAccess

/-- The number `± coefficient / 10^places`. -/
structure FixedDecimal where
  negative : Bool
  coefficient : Nat
  places : Nat
  coefficient_lt : coefficient < 2 ^ 96
deriving DecidableEq, Repr

namespace FixedDecimal

open Text (decimalValue digitValue)

/-- The greatest number of places. -/
def mostPlaces : Nat := 28

/-- The greatest number of digits of a fraction that can be kept after an integer part. -/
def keptPlaces? (whole fraction : List Char) : Option Nat :=
  ((List.range (min mostPlaces fraction.length + 1)).reverse).find? fun n =>
    decimalValue (whole ++ fraction.take n) < 2 ^ 96

/-- The decimal of a numeral without exponent; nothing when its integer part is too large. -/
def ofText? (s : List Char) : Option FixedDecimal := do
  let (negative, s) := SignedDecimal.sign s
  let (whole, fraction) ← SignedDecimal.readDigits? s
  let places ← keptPlaces? whole fraction
  let kept := decimalValue (whole ++ fraction.take places)
  let up := match fraction[places]? with
    | some digit => 5 ≤ digitValue digit
    | none => false
  let coefficient := if up && kept + 1 < 2 ^ 96 then kept + 1 else kept
  if h : coefficient < 2 ^ 96 then some ⟨negative && coefficient ≠ 0, coefficient, places, h⟩
  else none

/-- A binary64 number near the decimal: the integer part plus the fraction, rounded back to the
places. -/
def toBinary64 (d : FixedDecimal) : Option Binary64 := do
  let unit := 10 ^ d.places
  let whole := Binary64.ofInt (d.coefficient / unit : Nat)
  let signed (x : Binary64) : Binary64 := { x with negative := d.negative }
  if d.coefficient % unit = 0 then some (signed whole)
  else
    let unit ← Binary64.tenPow d.places
    let fraction ← (Binary64.ofInt (d.coefficient % 10 ^ d.places : Nat)).div unit
    let scaled ← (← whole.addMagnitudes fraction).mul unit
    signed <$> (Binary64.ofInt scaled.roundAbs).div unit

theorem toBinary64_places {d : FixedDecimal} (h : d.places = 0) :
    d.toBinary64 = some { Binary64.ofInt d.coefficient with negative := d.negative } := by
  simp [toBinary64, h, Nat.mod_one]

end FixedDecimal

end DataAccess
