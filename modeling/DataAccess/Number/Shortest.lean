import DataAccess.Number.Binary64
/-
**The fewest digits that read back.**  A binary64 number is written with the least number of
decimal digits from which reading recovers it; among several texts of that length the one nearest to
the value is taken, and a tie goes to the even last digit.

Main definitions:

* `Decimal` — `digits · 10^exponent`;
* `Binary64.readBack` — the magnitude recovered from a decimal;
* `Binary64.nearby` — the two neighbours of a value on the grid of `n` digits;
* `Binary64.shortest` — the first grid on which a neighbour reads back;
* `DecimalStyle`, `Decimal.text` — where positional notation ends, and the text itself.

Main results:

* `Binary64.candidate_readBack` — a chosen candidate reads back as the value.
-/

set_option autoImplicit false

namespace DataAccess

/-- The number `digits · 10^exponent`. -/
structure Decimal where
  digits : Nat
  exponent : Int
deriving DecidableEq, Repr

namespace Binary64

/-- Whether a decimal reads back as the absolute value of `x`. -/
def readBack (x : Binary64) (d : Decimal) : Bool :=
  match ofDecimal false d.digits d.exponent with
  | some y => y.magnitude == x.magnitude
  | none => false

/-- The two neighbours of the absolute value on the grid `10^exponent`, the nearer one first. -/
def nearby (x : Binary64) (exponent : Int) : List Decimal :=
  let num := x.numerator * 10 ^ (-exponent).toNat
  let den := x.denominator * 10 ^ exponent.toNat
  let below : Decimal := ⟨num / den, exponent⟩
  let above : Decimal := ⟨num / den + 1, exponent⟩
  -- rounding tells which neighbour is nearer; of two equally near ones the even one comes first
  if roundHalfEven num den = num / den then [below, above] else [above, below]

/-- The better neighbour with `n` digits that reads back, if there is one. -/
def candidate (x : Binary64) (n : Nat) : Option Decimal :=
  (x.nearby (floorLog10 x.numerator x.denominator - n + 1)).find? x.readBack

theorem candidate_readBack {x : Binary64} {n : Nat} {d : Decimal} (h : x.candidate n = some d) :
    x.readBack d = true :=
  List.find?_some h

/-- The shortest decimal that reads back as the absolute value; seventeen digits always suffice. -/
def shortest (x : Binary64) : Decimal :=
  if x.isZero then ⟨0, 0⟩
  else
    ((List.range 17).findSome? fun n => x.candidate (n + 1)).getD
      ⟨x.numerator / x.denominator, 0⟩

end Binary64

/-! ### The text of a decimal -/

/-- Which exponents of the leading digit are written positionally. -/
structure DecimalStyle where
  /-- The least such exponent. -/
  least : Int
  /-- The greatest such exponent. -/
  greatest : Int
deriving DecidableEq, Repr

/-- A list of digits without the zeros at its end. -/
def dropTrailingZeros (digits : List Char) : List Char :=
  (digits.reverse.dropWhile (· == '0')).reverse

/-- The digits with a point after the first `whole` of them, and `.0` when nothing follows. -/
def positional (digits : List Char) (leading : Int) : List Char :=
  if leading < 0 then
    '0' :: '.' :: List.replicate (-leading - 1).toNat '0' ++ digits
  else
    let whole := leading.toNat + 1
    let padded := digits ++ List.replicate (whole - digits.length) '0'
    -- an integer is filled up with zeros to its full length
    let fraction := padded.drop whole
    padded.take whole ++ '.' :: (if fraction.isEmpty then ['0'] else fraction)

/-- The digits with a point after the first one and a signed exponent. -/
def scientific (digits : List Char) (leading : Int) : List Char :=
  let mantissa :=
    match digits with
    | [] => ['0']
    | [d] => [d]
    | d :: rest => d :: '.' :: rest
  let sign := if leading < 0 then '-' else '+'
  mantissa ++ 'e' :: sign :: Nat.toDigits 10 leading.natAbs

/-- The text of a decimal in a style. -/
def Decimal.text (style : DecimalStyle) (d : Decimal) : List Char :=
  if d.digits = 0 then ['0', '.', '0']
  else
    let all := Nat.toDigits 10 d.digits
    let leading := d.exponent + all.length - 1
    let digits := dropTrailingZeros all
    if style.least ≤ leading ∧ leading ≤ style.greatest then positional digits leading
    else scientific digits leading

/-- The text of a number: its sign, then the shortest decimal that reads back. -/
def Binary64.text (style : DecimalStyle) (x : Binary64) : String :=
  let digits := x.shortest.text style
  String.ofList (if x.negative then '-' :: digits else digits)

end DataAccess
