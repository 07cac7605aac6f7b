import DataAccess.Json.Basic
import DataAccess.Text.Digits
/-
**Numbers in JSON text.**  A numeral without fraction and exponent that fits 64 bits is an integer.
Any other numeral is read in two roundings: the leading digits that fit 64 bits become a binary64
number, which is then multiplied or divided once by a power of ten.  Digits beyond those only move
the exponent.  `-0` is the negative zero, and a result beyond the finite numbers is no number.

Main definitions:

* `Numeral.Significand` — the digits absorbed so far and the power of ten they count;
* `Numeral.scaled` — a significand times a power of ten;
* `Numeral.read` — the longest numeral at the start of a text.

Main results:

* `Numeral.Significand.push_digits_lt` — the absorbed digits always fit 64 bits.
-/

set_option autoImplicit false

namespace DataAccess.Numeral

open Text (isDigit digitValue decimalValue)

/-- Digits absorbed from a numeral: the number is `digits · 10^exponent`, and `full` holds once a
digit did not fit. -/
structure Significand where
  digits : Nat
  exponent : Int
  full : Bool
deriving DecidableEq, Repr

namespace Significand

/-- No digits yet. -/
def empty : Significand := ⟨0, 0, false⟩

/-- Absorbs a digit of the integer part; a digit that does not fit only moves the exponent, and so
do all digits after it. -/
def pushWhole (s : Significand) (c : Char) : Significand :=
  if s.full then { s with exponent := s.exponent + 1 }
  else if s.digits * 10 + digitValue c < 2 ^ 64 then { s with digits := s.digits * 10 + digitValue c }
  else { s with exponent := s.exponent + 1, full := true }

/-- Absorbs a digit of the fraction; a digit that does not fit is dropped with all after it. -/
def pushFraction (s : Significand) (c : Char) : Significand :=
  if s.full then s
  else if s.digits * 10 + digitValue c < 2 ^ 64 then
    ⟨s.digits * 10 + digitValue c, s.exponent - 1, false⟩
  else { s with full := true }

theorem push_digits_lt {s : Significand} (h : s.digits < 2 ^ 64) (c : Char) :
    (s.pushWhole c).digits < 2 ^ 64 ∧ (s.pushFraction c).digits < 2 ^ 64 := by
  constructor
  · unfold pushWhole
    split
    · exact h
    · split <;> assumption
  · unfold pushFraction
    split
    · exact h
    · split <;> assumption

end Significand

/-- The number `± digits · 10^exponent` for digits that fit 64 bits, rounded once when the digits
become a binary64 number and once for each power of ten applied; nothing when it is not finite. -/
def scaled (negative : Bool) (digits : Nat) (exponent : Int) : Option Binary64 := do
  -- the first rounding: digits beyond 53 bits
  let f := Binary64.ofInt digits
  let signed (x : Binary64) : Binary64 := { x with negative := negative }
  if digits = 0 then some (signed f)
  else if 0 ≤ exponent then
    if 308 < exponent then none
    else signed <$> f.mul (← Binary64.tenPow exponent.toNat)
  else
    let places := (-exponent).toNat
    if places ≤ 308 then signed <$> f.div (← Binary64.tenPow places)
    -- no power of ten beyond 308 is a number, so a smaller result takes two divisions
    else if places ≤ 616 then
      let small ← f.div (← Binary64.tenPow 308)
      signed <$> small.div (← Binary64.tenPow (places - 308))
    else some (signed Binary64.zero)

/-- The exponent part after `e` or `E`: an optional sign and at least one digit. -/
def readExponent : List Char → Option (Int × List Char)
  | '+' :: rest => digitsOf 1 rest
  | '-' :: rest => digitsOf (-1) rest
  | rest => digitsOf 1 rest
where
  /-- At least one digit, as a signed integer. -/
  digitsOf (sign : Int) (s : List Char) : Option (Int × List Char) :=
    match s.takeWhile isDigit with
    | [] => none
    | digits =>
      some (sign * (decimalValue digits : Nat), s.dropWhile isDigit)

/-- What follows the integer part and the fraction: an exponent or nothing. -/
def finish (negative : Bool) (s : Significand) (rest : List Char) :
    Option (Number × List Char) :=
  match rest with
  | 'e' :: rest | 'E' :: rest => do
    let (exponent, rest) ← readExponent rest
    let x ← scaled negative s.digits (s.exponent + exponent)
    some (.float x, rest)
  | _ => do
    let x ← scaled negative s.digits s.exponent
    some (.float x, rest)

/-- A numeral without its sign. -/
def readUnsigned (negative : Bool) (s : List Char) : Option (Number × List Char) :=
  let whole := s.takeWhile isDigit
  let rest := s.dropWhile isDigit
  if whole.isEmpty || (whole.length ≠ 1 && whole.head? == some '0') then none
  else
    let sig := whole.foldl Significand.pushWhole .empty
    match rest with
    | '.' :: rest =>
      -- a digit of the fraction may fit again where one of the integer part did not
      let fraction := rest.takeWhile isDigit
      if fraction.isEmpty then none
      else
        finish negative (fraction.foldl Significand.pushFraction { sig with full := false })
          (rest.dropWhile isDigit)
    | 'e' :: _ | 'E' :: _ => finish negative sig rest
    | _ =>
      if sig.full then finish negative sig rest
      else if negative then
        if sig.digits = 0 then some (.float Binary64.negativeZero, rest)
        else some (.ofInt (-sig.digits), rest)
      else some (.ofInt sig.digits, rest)

/-- The longest numeral at the start of a text, with what follows it. -/
def read : List Char → Option (Number × List Char)
  | '-' :: rest => readUnsigned true rest
  | rest => readUnsigned false rest

end DataAccess.Numeral
