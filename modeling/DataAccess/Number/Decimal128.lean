import DataAccess.Number.SignedDecimal
/-
**Decimals of 34 digits.**  Document databases hold exact decimals with up to 34 digits, and the
values that are no numbers.

Main definitions:

* `Decimal128` — a decimal, an infinity, or no number;
* `Decimal128.ofText?`, `Decimal128.text` — the written form, read and written.

Main results:

* `Decimal128.ofText?_special` — the written forms of what is not finite read back.
-/

set_option autoImplicit false

namespace DataAccess

/-- A decimal of a document database. -/
inductive Decimal128
  | finite (value : SignedDecimal)
  | infinity (negative : Bool)
  | notANumber
deriving DecidableEq, Repr

namespace Decimal128

/-- Whether a decimal fits: 34 digits and exponents from -6176 to 6111. -/
def fits (d : Decimal) : Bool :=
  decide (d.digits < 10 ^ 34) && decide (-6176 ≤ d.exponent) && decide (d.exponent ≤ 6111)

/-- The decimal that a text denotes; the words are read in any letter case. -/
def ofText? (s : String) : Option Decimal128 :=
  let (negative, rest) := SignedDecimal.sign s.toList
  let word := String.ofList (rest.map Char.toLower)
  if word = "nan" then some .notANumber
  else if word = "infinity" ∨ word = "inf" then some (.infinity negative)
  else
    match SignedDecimal.read? s.toList with
    | some d => if fits d.magnitude then some (.finite d) else none
    | none => none

/-- The written form. -/
def text : Decimal128 → String
  | .finite d => d.text
  | .infinity negative => if negative then "-Infinity" else "Infinity"
  | .notANumber => "NaN"

theorem ofText?_special :
    ofText? (text .notANumber) = some .notANumber ∧
      ∀ negative, ofText? (text (.infinity negative)) = some (.infinity negative) := by
  decide +kernel

end Decimal128

end DataAccess
