/-
**Powers.**  Powers of naturals and integers are the primitive ones throughout, also in a module that
imports the powers every monoid has: a bound such as `2 ^ 64` is then one term wherever it is written.
The size of a quotient is the greatest power of the base that it reaches.

Main definitions:

* `floorLog2`, `floorLog10` — the size of a positive quotient in binary and in decimal.
-/

set_option autoImplicit false

namespace DataAccess

attribute [instance (2000), default_instance 20000] instPowNat

/-- The greatest `e` with `2^e ≤ num / den`, for a positive quotient. -/
def floorLog2 (num den : Nat) : Int :=
  let e : Int := (Nat.log2 num : Int) - (Nat.log2 den : Int)
  -- the bit counts decide up to one, and one comparison decides the rest
  if num * 2 ^ (-e).toNat < den * 2 ^ e.toNat then e - 1 else e

/-- The greatest `e` with `10^e ≤ num / den`, for a positive quotient. -/
def floorLog10 (num den : Nat) : Int :=
  let e : Int := ((Nat.toDigits 10 num).length : Int) - ((Nat.toDigits 10 den).length : Int)
  -- the digit counts decide up to one, and one comparison decides the rest
  if num * 10 ^ (-e).toNat < den * 10 ^ e.toNat then e - 1 else e

end DataAccess
