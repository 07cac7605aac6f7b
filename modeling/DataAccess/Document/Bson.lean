import DataAccess.Calendar.Timestamp
import DataAccess.Document.Store
import DataAccess.Number.Decimal128
import DataAccess.Text.Hex
/-
**Values of a document database.**  A database distinguishes more kinds of value than JSON does:
words of two sizes, object identifiers, instants and others.  Records are sent with every integer as
a signed 64-bit word; in conditions on the key field a text of 24 hexadecimal digits means an object
identifier.  What comes back is read as JSON again.

Main definitions:

* `Bson`, `BsonDocument` — the values, and documents of them;
* `ObjectId.ofText?` — the object identifier that a text denotes;
* `Bson.ofJson` — a value as it is sent;
* `Bson.keyOperand`, `Bson.ofFilter` — conditions as they are sent;
* `Bson.extended` — a value in extended JSON, canonical or relaxed;
* `Bson.toJson` — a value as it is read back.

Main results:

* `ObjectId.ofText?_ofText?` — an object identifier is its own written form;
* `Bson.ofJson_integer` — a signed 64-bit integer is sent as itself;
* `Bson.keys_ofFields`, `Bson.keys_ofConditions` — documents and filters keep their keys in order.
-/

set_option autoImplicit false

namespace DataAccess

/-- A binary64 number, an infinity, or no number. -/
inductive Double
  | finite (value : Binary64)
  | infinity (negative : Bool)
  | notANumber
deriving DecidableEq, Repr

/-- A value of a document database; the entries of a document are in order. -/
inductive Bson
  | null
  | undefined
  | bool (value : Bool)
  | int32 (value : Int)
  | int64 (value : Int)
  | double (value : Double)
  | decimal (value : Decimal128)
  | string (value : String)
  | symbol (value : String)
  /-- An object identifier, as hexadecimal digits in lower case. -/
  | objectId (digits : String)
  /-- An instant, in milliseconds since 1970-01-01T00:00:00Z. -/
  | instant (millis : Int)
  | timestamp (seconds increment : Nat)
  /-- Bytes in base64, with the code of what they mean. -/
  | binary (base64 : String) (subtype : UInt8)
  | regex (pattern options : String)
  | code (text : String)
  | codeWithScope (text : String) (scope : List (String × Bson))
  | pointer (collection digits : String)
  | minKey
  | maxKey
  | array (items : List Bson)
  | document (fields : List (String × Bson))
deriving Inhabited

/-- The entries of a document. -/
abbrev BsonDocument := Keyed Bson

/-- The object identifier that a text of 24 hexadecimal digits denotes. -/
def ObjectId.ofText? (s : String) : Option String :=
  if s.length = 24 then (Text.lowerHex? s.toList).map String.ofList else none

theorem ObjectId.ofText?_ofText? {s digits : String} (h : ObjectId.ofText? s = some digits) :
    ObjectId.ofText? digits = some digits := by
  unfold ObjectId.ofText? at h ⊢
  split at h
  · next size =>
    obtain ⟨ds, hds, rfl⟩ := Option.map_eq_some_iff.1 h
    have length : ds.length = 24 := (Text.lowerHex?_length hds).trans (String.length_toList.trans size)
    simp [Text.lowerHex?_lowerHex? hds, length]
  · simp at h

namespace Bson

/-! ### What is sent -/

/-- A number as it is sent. -/
def ofNumber (n : Number) : Bson :=
  match n.asSigned? with
  | some i => .int64 i
  | none => .double (.finite n.toBinary64)

mutual

/-- A value as it is sent. -/
def ofJson : Json → Bson
  | .null => .null
  | .bool b => .bool b
  | .number n => ofNumber n
  | .string s => .string s
  | .array items => .array (ofItems items)
  | .object fields => .document (ofFields fields)

/-- The items of an array as they are sent. -/
def ofItems : List Json → List Bson
  | [] => []
  | x :: rest => ofJson x :: ofItems rest

/-- The entries of an object as they are sent. -/
def ofFields : List (String × Json) → List (String × Bson)
  | [] => []
  | (key, x) :: rest => (key, ofJson x) :: ofFields rest

end

theorem ofJson_integer {i : Int} (h : -2 ^ 63 ≤ i ∧ i < 2 ^ 63) :
    ofJson (.int i) = .int64 i := by
  have inRange : -2 ^ 63 ≤ i ∧ i < 2 ^ 64 := by omega
  have fits : i < 9223372036854775808 := by omega
  simp [ofJson, ofNumber, Json.int, Number.ofInt_of_inRange inRange, Number.asSigned?, fits]

mutual

/-- An operand of a condition on the key field: texts that denote object identifiers are sent as
such, also inside lists and documents. -/
def keyOperand : Json → Bson
  | .string s =>
    match ObjectId.ofText? s with
    | some digits => .objectId digits
    | none => .string s
  | .array items => .array (keyItems items)
  | .object fields => .document (keyFields fields)
  | .null => .null
  | .bool b => .bool b
  | .number n => ofNumber n

/-- The items of a list of operands. -/
def keyItems : List Json → List Bson
  | [] => []
  | x :: rest => keyOperand x :: keyItems rest

/-- The operators on the key field. -/
def keyFields : List (String × Json) → List (String × Bson)
  | [] => []
  | (operator, x) :: rest => (operator, keyOperand x) :: keyFields rest

end

mutual

/-- A filter as it is sent; what is no document asks for nothing. -/
def ofFilter : Filter → List (String × Bson)
  | .object fields => ofConditions fields
  | _ => []

/-- The entries of a filter: combinations of filters, conditions on the key, and others. -/
def ofConditions : List (String × Json) → List (String × Bson)
  | [] => []
  | (key, x) :: rest =>
    (key,
      if key = "$and" ∨ key = "$or" then .array (ofClauses x)
      else if key = documentKey then keyOperand x
      else ofJson x) :: ofConditions rest

/-- The filters that a combination lists. -/
def ofClauses : Json → List Bson
  | .array clauses => ofFilters clauses
  | _ => []

/-- A list of filters as it is sent. -/
def ofFilters : List Json → List Bson
  | [] => []
  | clause :: rest => .document (ofFilter clause) :: ofFilters rest

end

theorem keys_ofConditions (fields : List (String × Json)) :
    Keyed.keys (ofConditions fields) = Keyed.keys fields := by
  induction fields with
  | nil => simp [ofConditions]
  | cons entry rest ih => simp [ofConditions, ih]

theorem keys_ofFields (fields : List (String × Json)) :
    Keyed.keys (ofFields fields) = Keyed.keys fields := by
  induction fields with
  | nil => simp [ofFields]
  | cons entry rest ih => simp [ofFields, ih]

/-! ### Extended JSON -/

/-- Exponents of any size are written positionally. -/
def doubleStyle : DecimalStyle := ⟨-400, 400⟩

/-- The text of a binary64 number. -/
def doubleText : Double → String
  | .finite x => x.text doubleStyle
  | .infinity negative => if negative then "-Infinity" else "Infinity"
  | .notANumber => "NaN"

/-- A value under the key that names its kind. -/
def tagged (tag : String) (v : Json) : Json := .object [(tag, v)]

/-- The instant of a count of milliseconds. -/
def instantOf (millis : Int) : Timestamp := ⟨millis / 1000, (millis % 1000).toNat * 1000000⟩

/-- An instant in extended JSON: relaxed, from 1970 on, in its brief form. -/
def extendedInstant (canonical : Bool) (millis : Int) : Json :=
  let count := tagged "$date" (tagged "$numberLong" (.string (toString millis)))
  if canonical ∨ millis < 0 then count
  else
    match (instantOf millis).brief? with
    | some text => tagged "$date" (.string text)
    | none => count

mutual

/-- A value in extended JSON.  In the canonical form every kind of number is named; in the relaxed
form numbers stand for themselves. -/
def extended (canonical : Bool) : Bson → Json
  | .null => .null
  | .undefined => tagged "$undefined" (.bool true)
  | .bool b => .bool b
  | .int32 i => if canonical then tagged "$numberInt" (.string (toString i)) else .int i
  | .int64 i => if canonical then tagged "$numberLong" (.string (toString i)) else .int i
  | .double (.finite x) =>
    if canonical then tagged "$numberDouble" (.string (doubleText (.finite x)))
    else .number (.float x)
  | .double x => tagged "$numberDouble" (.string (doubleText x))
  | .decimal d => tagged "$numberDecimal" (.string d.text)
  | .string s => .string s
  | .symbol s => tagged "$symbol" (.string s)
  | .objectId digits => tagged "$oid" (.string digits)
  | .instant millis => extendedInstant canonical millis
  | .timestamp seconds increment =>
    tagged "$timestamp" (.object [("t", .nat seconds), ("i", .nat increment)])
  | .binary base64 subtype =>
    tagged "$binary"
      (.object
        [("base64", .string base64),
         ("subType", .string (String.ofList (Text.hexPair subtype)))])
  | .regex pattern options =>
    tagged "$regularExpression"
      (.object [("pattern", .string pattern), ("options", .string options)])
  | .code text => tagged "$code" (.string text)
  | .codeWithScope text scope =>
    .object [("$code", .string text), ("$scope", .object (extendedFields canonical scope))]
  | .pointer collection digits =>
    tagged "$dbPointer"
      (.object [("$ref", .string collection), ("$id", tagged "$oid" (.string digits))])
  | .minKey => tagged "$minKey" (.int 1)
  | .maxKey => tagged "$maxKey" (.int 1)
  | .array items => .array (extendedItems canonical items)
  | .document fields => .object (extendedFields canonical fields)

/-- The items of an array in extended JSON. -/
def extendedItems (canonical : Bool) : List Bson → List Json
  | [] => []
  | x :: rest => extended canonical x :: extendedItems canonical rest

/-- The entries of a document in extended JSON. -/
def extendedFields (canonical : Bool) : List (String × Bson) → List (String × Json)
  | [] => []
  | (key, x) :: rest => (key, extended canonical x) :: extendedFields canonical rest

end

/-! ### What is read back -/

mutual

/-- A value as it is read back.  Identifiers are hexadecimal digits, instants are written out where
their year allows it, what is no number is null, and the kinds that JSON has no counterpart for are
in relaxed extended JSON. -/
def toJson : Bson → Json
  | .null | .undefined => .null
  | .bool b => .bool b
  | .int32 i | .int64 i => .int i
  | .double (.finite x) => .number (.float x)
  | .double _ => .null
  | .decimal d => .string d.text
  | .string s => .string s
  | .objectId digits => .string digits
  | .instant millis =>
    match (instantOf millis).brief? with
    | some text => .string text
    | none => .int millis
  | .array items => .array (toItems items)
  | .document fields => .object (toFields fields)
  | other => extended false other

/-- The items of an array as they are read back. -/
def toItems : List Bson → List Json
  | [] => []
  | x :: rest => toJson x :: toItems rest

/-- The entries of a document as they are read back. -/
def toFields : List (String × Bson) → List (String × Json)
  | [] => []
  | (key, x) :: rest => (key, toJson x) :: toFields rest

end

/-! ### Views -/

/-- The text of a string value. -/
def asString? : Bson → Option String
  | .string s => some s
  | _ => none

/-- The entries of a document. -/
def asDocument? : Bson → Option BsonDocument
  | .document fields => some fields
  | _ => none

/-- The items of an array. -/
def asItems? : Bson → Option (List Bson)
  | .array items => some items
  | _ => none

/-- A word that is not negative. -/
def asCount? : Bson → Option Nat
  | .int32 i | .int64 i => if 0 ≤ i then some i.toNat else none
  | _ => none

end Bson

end DataAccess
