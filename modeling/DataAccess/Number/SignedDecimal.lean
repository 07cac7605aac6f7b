import DataAccess.Number.Shortest
import DataAccess.Text.Digits
/-
**Decimals with their exponent.**  A decimal datum is a coefficient with the exponent that it was
written with, so that `1.50` and `1.5` differ.  It is written positionally while its exponent is not
positive and no more than five zeros follow the point, and with an exponent of the leading digit
otherwise.

Main definitions:

* `SignedDecimal` — a sign and a decimal;
* `SignedDecimal.read?` — the decimal that a text denotes;
* `SignedDecimal.text` — the text of a decimal;
* `SignedDecimal.toBinary64` — the nearest binary64 number.

Main results:

* `SignedDecimal.text_integer` — an integer is written with its digits alone.
-/

set_option autoImplicit false

namespace DataAccess

/-- A decimal with a sign. -/
structure SignedDecimal where
  negative : Bool
  magnitude : Decimal
deriving DecidableEq, Repr

namespace SignedDecimal

open Text (isDigit decimalValue)

/-- A sign at the start of a text. -/
def sign : List Char → Bool × List Char
  | '-' :: rest => (true, rest)
  | '+' :: rest => (false, rest)
  | rest => (false, rest)

/-- Digits with at most one point among them, as those before and after it. -/
def readDigits? (s : List Char) : Option (List Char × List Char) :=
  let whole := s.takeWhile isDigit
  let fraction? := match s.dropWhile isDigit with
    | [] => some []
    | '.' :: fraction => if fraction.all isDigit then some fraction else none
    | _ => none
  fraction?.bind fun fraction =>
    if whole.isEmpty && fraction.isEmpty then none else some (whole, fraction)

/-- A signed run of digits. -/
def readInt? (s : List Char) : Option Int :=
  let (negative, digits) := sign s
  if digits.isEmpty || !digits.all isDigit then none
  else some (if negative then -(decimalValue digits : Int) else decimalValue digits)

/-- The decimal that a text denotes: digits with at most one point, then perhaps an exponent. -/
def read? (s : List Char) : Option SignedDecimal := do
  let (negative, s) := sign s
  let mark (c : Char) : Bool := c != 'e' && c != 'E'
  let (whole, fraction) ← readDigits? (s.takeWhile mark)
  let exponent ← match s.dropWhile mark with
    | [] => some 0
    | _ :: exponent => readInt? exponent
  some ⟨negative, ⟨decimalValue (whole ++ fraction), exponent - fraction.length⟩⟩

/-- The text of the absolute value. -/
def magnitudeText (d : Decimal) : List Char :=
  let digits := Nat.toDigits 10 d.digits
  let leading := d.exponent + digits.length - 1
  if d.exponent ≤ 0 ∧ -6 ≤ leading then
    if d.exponent = 0 then digits
    else
      let places := (-d.exponent).toNat
      let padded := List.replicate (places + 1 - digits.length) '0' ++ digits
      padded.take (padded.length - places) ++ '.' :: padded.drop (padded.length - places)
  else
    let mantissa := match digits with
      | first :: next :: rest => first :: '.' :: next :: rest
      | short => short
    mantissa ++ 'E' :: (if leading < 0 then '-' else '+') :: Nat.toDigits 10 leading.natAbs

/-- The text of a decimal. -/
def text (d : SignedDecimal) : String :=
  let digits := magnitudeText d.magnitude
  String.ofList (if d.negative then '-' :: digits else digits)

theorem text_integer (n : Nat) :
    (SignedDecimal.mk false ⟨n, 0⟩).text = String.ofList (Nat.toDigits 10 n) := by
  have h : (-6 : Int) ≤ (Nat.toDigits 10 n).length - 1 := by omega
  simp [text, magnitudeText, h]

/-- The nearest binary64 number, if it is finite. -/
def toBinary64 (d : SignedDecimal) : Option Binary64 :=
  Binary64.ofDecimal d.negative d.magnitude.digits d.magnitude.exponent

end SignedDecimal

end DataAccess
