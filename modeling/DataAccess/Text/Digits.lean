import DataAccess.Number.Power
/-
**Decimal digits.**  Numerals, dates and identifiers with numbers are read digit by digit; only the
ten ASCII digits count, whatever other digits a text may hold.

Main definitions:

* `Text.isDigit`, `Text.digitValue` — one digit;
* `Text.decimalValue` — the value of a run of digits;
* `Text.digits` — a run of digits at the start of a text, with bounds on its length.

Main results:

* `Text.decimalValue_append_digit` — a further digit multiplies by ten and adds;
* `Text.digits_length` — a run read with bounds has as many digits as the bounds allow.
-/

set_option autoImplicit false

namespace DataAccess.Text

/-- Whether a character is one of the ten ASCII digits. -/
def isDigit (c : Char) : Bool := decide ('0' ≤ c) && decide (c ≤ '9')

/-- The value of a decimal digit. -/
def digitValue (c : Char) : Nat := c.toNat - '0'.toNat

/-- The value of a run of decimal digits. -/
def decimalValue (digits : List Char) : Nat :=
  digits.foldl (fun n c => n * 10 + digitValue c) 0

@[simp] theorem decimalValue_append_digit (digits : List Char) (c : Char) :
    decimalValue (digits ++ [c]) = decimalValue digits * 10 + digitValue c := by
  simp [decimalValue]

/-- The run of digits at the start of a text, cut at `most` if there is such a bound; nothing when
it is shorter than `least`. -/
def digits (least : Nat) (most : Option Nat) (s : List Char) : Option (List Char × List Char) :=
  let run := s.takeWhile isDigit
  let read := match most with
    | some n => run.take n
    | none => run
  if read.length < least then none else some (read, s.drop read.length)

theorem digits_length {least n : Nat} {s read rest : List Char}
    (h : digits least (some n) s = some (read, rest)) :
    least ≤ read.length ∧ read.length ≤ n := by
  simp only [digits] at h
  split at h
  · simp at h
  · next long =>
    simp only [Option.some.injEq, Prod.mk.injEq] at h
    obtain ⟨rfl, -⟩ := h
    exact ⟨Nat.not_lt.1 long, by simp only [List.length_take]; omega⟩

end DataAccess.Text
