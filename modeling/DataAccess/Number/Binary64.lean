import DataAccess.Number.Power
/-
**Finite binary64 numbers, exactly.**  A number that is not an integer is held with 53 significant
bits.  The type keeps a sign and the *magnitude*: the position of the absolute value in the
increasing sequence `0, 2^-1074, 2·2^-1074, …` of all finite magnitudes, which is also the bit
pattern without its sign bit.  Order is then order of positions, and all arithmetic is exact
arithmetic on natural numbers followed by one rounding.

Main definitions:

* `Binary64` — a sign and a position below that of infinity;
* `Binary64.significand`, `Binary64.scale` — the decoded value `significand · 2^scale`;
* `roundHalfEven` — the nearest integer to a quotient, a tie going to the even neighbour;
* `roundMagnitude` — the position of the magnitude nearest to a quotient;
* `Binary64.ofQuotient` — the nearest number to a signed quotient, if it is finite;
* `Binary64.key` — the order key: numbers compare as their keys do;
* `Binary64.toSingle` — the nearest number of single precision.

Main results:

* `Binary64.compare_zeros` — the two zeros compare equal;
* `two_mul_roundHalfEven_le`, `le_two_mul_roundHalfEven` — rounding is within half a unit.
-/

set_option autoImplicit false

namespace DataAccess

/-! ### Rounding a quotient -/

/-- The integer nearest to `num / den`; a tie goes to the even neighbour. -/
def roundHalfEven (num den : Nat) : Nat :=
  let q := num / den
  let r := num % den
  if 2 * r < den then q
  else if den < 2 * r then q + 1
  else if q % 2 = 0 then q else q + 1

theorem two_mul_roundHalfEven_le {num den : Nat} (h : 0 < den) :
    2 * (roundHalfEven num den * den) ≤ 2 * num + den := by
  have e := Nat.div_add_mod num den
  have l := Nat.mod_lt num h
  have c : den * (num / den) = num / den * den := Nat.mul_comm _ _
  have s : (num / den + 1) * den = num / den * den + den := Nat.succ_mul _ _
  simp only [roundHalfEven]
  split
  · omega
  · split
    · omega
    · split <;> omega

theorem le_two_mul_roundHalfEven {num den : Nat} (h : 0 < den) :
    2 * num ≤ 2 * (roundHalfEven num den * den) + den := by
  have e := Nat.div_add_mod num den
  have l := Nat.mod_lt num h
  have c : den * (num / den) = num / den * den := Nat.mul_comm _ _
  have s : (num / den + 1) * den = num / den * den + den := Nat.succ_mul _ _
  simp only [roundHalfEven]
  split
  · omega
  · split
    · omega
    · split <;> omega

/-- The position of the magnitude nearest to `num / den`.  The unit is `2^u` where `u` leaves 53
bits before the point, but never goes below `2^-1074`; a carry out of the significand moves on to
the next exponent by itself. -/
def roundMagnitude (num den : Nat) : Nat :=
  if num = 0 then 0
  else
    let u : Int := max (floorLog2 num den - 52) (-1074)
    (u + 1074).toNat * 2 ^ 52 + roundHalfEven (num * 2 ^ (-u).toNat) (den * 2 ^ u.toNat)

/-! ### The type -/

/-- A finite binary64 number. -/
structure Binary64 where
  /-- The sign, kept for zero as well. -/
  negative : Bool
  /-- The position of the absolute value among all finite magnitudes. -/
  magnitude : Nat
  /-- The position lies below that of infinity. -/
  finite : magnitude < 2047 * 2 ^ 52 := by decide
deriving DecidableEq, Repr

namespace Binary64

/-- Positive zero. -/
def zero : Binary64 := ⟨false, 0, by decide⟩

/-- Negative zero. -/
def negativeZero : Binary64 := ⟨true, 0, by decide⟩

/-- The greatest finite number. -/
def greatest : Binary64 := ⟨false, 2047 * 2 ^ 52 - 1, by decide⟩

instance : Inhabited Binary64 := ⟨zero⟩

/-- The integer significand of the absolute value. -/
def significand (x : Binary64) : Nat :=
  if x.magnitude < 2 ^ 52 then x.magnitude else 2 ^ 52 + x.magnitude % 2 ^ 52

/-- The power of two that the significand counts. -/
def scale (x : Binary64) : Int :=
  (max (x.magnitude / 2 ^ 52) 1 : Nat) - 1075

/-- The numerator of the absolute value over `denominator`. -/
def numerator (x : Binary64) : Nat := x.significand * 2 ^ x.scale.toNat

/-- The denominator of the absolute value, a power of two. -/
def denominator (x : Binary64) : Nat := 2 ^ (-x.scale).toNat

/-- Whether the number is one of the two zeros. -/
def isZero (x : Binary64) : Bool := x.magnitude == 0

/-- The number with the opposite sign. -/
def neg (x : Binary64) : Binary64 := { x with negative := !x.negative }

@[simp] theorem neg_neg (x : Binary64) : x.neg.neg = x := by
  cases x; simp [neg]

/-! ### Order -/

/-- The order key: the signed position. -/
def key (x : Binary64) : Int :=
  if x.negative then -(x.magnitude : Int) else x.magnitude

/-- Numeric comparison. -/
def compare (x y : Binary64) : Ordering := Ord.compare x.key y.key

/-- Numeric equality; the two zeros are equal. -/
def equal (x y : Binary64) : Bool := x.key == y.key

theorem compare_zeros : compare zero negativeZero = .eq := by decide

@[simp] theorem equal_refl (x : Binary64) : x.equal x = true := by simp [equal]

theorem equal_comm (x y : Binary64) : x.equal y = y.equal x := by
  simp [equal, Bool.beq_comm]

/-! ### Rounding -/

/-- The number nearest to `± num / den`, or nothing when the nearest magnitude is infinite. -/
def ofQuotient (negative : Bool) (num den : Nat) : Option Binary64 :=
  if h : roundMagnitude num den < 2047 * 2 ^ 52 then some ⟨negative, roundMagnitude num den, h⟩
  else none

/-- The number nearest to an integer; integers beyond the finite numbers go to the greatest. -/
def ofInt (i : Int) : Binary64 :=
  (ofQuotient (decide (i < 0)) i.natAbs 1).getD { greatest with negative := decide (i < 0) }

/-- The product, rounded once. -/
def mul (x y : Binary64) : Option Binary64 :=
  ofQuotient (x.negative != y.negative) (x.numerator * y.numerator) (x.denominator * y.denominator)

/-- The quotient by a number other than zero, rounded once. -/
def div (x y : Binary64) : Option Binary64 :=
  ofQuotient (x.negative != y.negative) (x.numerator * y.denominator) (x.denominator * y.numerator)

/-- The sum of two absolute values, rounded once. -/
def addMagnitudes (x y : Binary64) : Option Binary64 :=
  ofQuotient false (x.numerator * y.denominator + y.numerator * x.denominator)
    (x.denominator * y.denominator)

/-- The number nearest to `10^k`. -/
def tenPow (k : Nat) : Option Binary64 := ofQuotient false (10 ^ k) 1

/-- The number nearest to `± digits · 10^exponent`, if it is finite.  A value of at least `10^310`
has no finite neighbour and one below `10^-330` is nearest to zero, so that no larger power of ten
is ever formed. -/
def ofDecimal (negative : Bool) (digits : Nat) (exponent : Int) : Option Binary64 :=
  if digits = 0 then some ⟨negative, 0, by decide⟩
  else
    let size : Int := (Nat.toDigits 10 digits).length
    if exponent + size > 310 then none
    else if exponent + size < -330 then some ⟨negative, 0, by decide⟩
    else ofQuotient negative (digits * 10 ^ exponent.toNat) (10 ^ (-exponent).toNat)

/-- The integer part of the absolute value. -/
def floorAbs (x : Binary64) : Nat := x.numerator / x.denominator

/-- The integer nearest to the absolute value; a tie goes up. -/
def roundAbs (x : Binary64) : Nat := (2 * x.numerator + x.denominator) / (2 * x.denominator)

/-- The nearest number of single precision, which keeps 24 bits and no bit below `2^-149`; nothing
when that is infinite. -/
def toSingle (x : Binary64) : Option Binary64 :=
  if x.isZero then some x
  else
    let u : Int := max (floorLog2 x.numerator x.denominator - 23) (-149)
    let n := roundHalfEven (x.numerator * 2 ^ (-u).toNat) (x.denominator * 2 ^ u.toNat)
    -- `n · 2^u` needs 24 bits, so the last step rounds nothing
    if 2 ^ 128 ≤ n * 2 ^ u.toNat then none
    else ofQuotient x.negative (n * 2 ^ u.toNat) (2 ^ (-u).toNat)

theorem toSingle_zeros : toSingle zero = some zero ∧ toSingle negativeZero = some negativeZero := by
  decide

end Binary64

end DataAccess
