import DataAccess.Number.Binary64
import DataAccess.Json.Keyed
/-
**JSON values.**  Records travel between callers and backends as JSON.  Objects keep their entries
in insertion order; numbers are either integers that fit 64 bits, signed or unsigned, or finite
binary64 numbers, and the two kinds are never equal as values.

Main definitions:

* `Number` — a 64-bit integer or a finite binary64 number;
* `Json` — the values; `Record` — the entries of an object;
* `Json.same` — equality of values: objects regardless of order, the two zeros equal;
* `Json.isNull`, `Json.asString?`, `Json.asList?`, `Json.asRecord?`, … — the views.

Main results:

* `Number.same_refl` — every number is the same as itself;
* `Json.isNull_iff` — only `null` is null.
-/

set_option autoImplicit false

namespace DataAccess

/-! ### Numbers -/

/-- A number: an integer in the range of 64-bit words, signed or unsigned, or a binary64 number. -/
inductive Number
  | integer (value : Int) (inRange : -2 ^ 63 ≤ value ∧ value < 2 ^ 64 := by decide)
  | float (value : Binary64)
deriving DecidableEq, Repr

namespace Number

/-- An integer as a number; one that does not fit becomes the nearest binary64 number. -/
def ofInt (i : Int) : Number :=
  if h : -2 ^ 63 ≤ i ∧ i < 2 ^ 64 then .integer i h else .float (Binary64.ofInt i)

/-- The value as a binary64 number; integers are rounded to the nearest. -/
def toBinary64 : Number → Binary64
  | .integer i _ => Binary64.ofInt i
  | .float x => x

/-- The value as a signed 64-bit integer, if it is an integer that fits. -/
def asSigned? : Number → Option Int
  | .integer i _ => if i < 2 ^ 63 then some i else none
  | .float _ => none

/-- The value as an unsigned 64-bit integer, if it is an integer that fits. -/
def asUnsigned? : Number → Option Nat
  | .integer i _ => if 0 ≤ i then some i.toNat else none
  | .float _ => none

/-- Equality of numbers: an integer never equals a binary64 number, and the two zeros are equal. -/
def same : Number → Number → Bool
  | .integer i _, .integer j _ => i == j
  | .float x, .float y => x.equal y
  | _, _ => false

@[simp] theorem same_refl (n : Number) : n.same n = true := by
  cases n <;> simp [same]

/-- Numeric comparison, both sides as binary64 numbers. -/
def compare (m n : Number) : Ordering := m.toBinary64.compare n.toBinary64

theorem ofInt_of_inRange {i : Int} (h : -2 ^ 63 ≤ i ∧ i < 2 ^ 64) : ofInt i = .integer i h := by
  simp only [ofInt, dif_pos h]

end Number

/-! ### Values -/

/-- A JSON value; the entries of an object are in insertion order. -/
inductive Json
  | null
  | bool (value : Bool)
  | number (value : Number)
  | string (value : String)
  | array (items : List Json)
  | object (fields : List (String × Json))
deriving Repr, Inhabited

/-- The entries of an object in insertion order. -/
abbrev Record := Keyed Json

namespace Json

/-- An integer value. -/
def int (i : Int) : Json := .number (.ofInt i)

/-- A count. -/
def nat (n : Nat) : Json := .number (.ofInt n)

/-- Whether a value is `null`. -/
def isNull : Json → Bool
  | .null => true
  | _ => false

theorem isNull_iff {v : Json} : v.isNull = true ↔ v = .null := by
  cases v <;> simp [isNull]

/-- The text of a string value. -/
def asString? : Json → Option String
  | .string s => some s
  | _ => none

/-- The truth value of a boolean. -/
def asBool? : Json → Option Bool
  | .bool b => some b
  | _ => none

/-- The number of a numeric value. -/
def asNumber? : Json → Option Number
  | .number n => some n
  | _ => none

/-- A numeric value as an unsigned 64-bit integer. -/
def asUnsigned? (v : Json) : Option Nat := v.asNumber?.bind Number.asUnsigned?

/-- A numeric value as a signed 64-bit integer. -/
def asSigned? (v : Json) : Option Int := v.asNumber?.bind Number.asSigned?

/-- The items of an array. -/
def asList? : Json → Option (List Json)
  | .array items => some items
  | _ => none

/-- The entries of an object. -/
def asRecord? : Json → Option Record
  | .object fields => some fields
  | _ => none

/-- The value under a key of an object; nothing for other values. -/
def get? (v : Json) (key : String) : Option Json := v.asRecord?.bind fun r => r.get? key

/-! ### Equality of values -/

mutual

/-- Equality of values: arrays item by item, objects entry by entry in any order. -/
def same : Json → Json → Bool
  | .null, .null => true
  | .bool a, .bool b => a == b
  | .number a, .number b => a.same b
  | .string a, .string b => a == b
  | .array xs, .array ys => sameItems xs ys
  | .object xs, .object ys => xs.length == ys.length && sameFields xs ys
  | _, _ => false

/-- Equality of two lists of values, item by item. -/
def sameItems : List Json → List Json → Bool
  | [], [] => true
  | x :: xs, y :: ys => same x y && sameItems xs ys
  | _, _ => false

/-- Whether each entry has an equal counterpart under its key. -/
def sameFields : List (String × Json) → List (String × Json) → Bool
  | [], _ => true
  | (key, x) :: xs, ys =>
    (match Keyed.get? ys key with
      | some y => same x y
      | none => false) && sameFields xs ys

end

end Json

end DataAccess
