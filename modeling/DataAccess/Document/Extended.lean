import DataAccess.Calendar.Notation
import DataAccess.Document.Bson
import DataAccess.Text.Base64Url
/-
**Reading extended JSON.**  In extended JSON a kind of value that JSON lacks is an object whose only
key names the kind.  Values are read from the inside out, so that the payload of such an object has
been read already when its key is looked at.  A plain integer is a word of 32 bits if it fits, else
of 64 bits.

Main definitions:

* `Bson.tagReader?` — the keys that name a kind, and how their payloads are read;
* `Bson.ofTags?` — the value that a document of read entries stands for;
* `Bson.ofExtended?` — the value that extended JSON denotes.

Main results:

* `Bson.ofTags?_ordinary` — a document with one ordinary key stands for itself.
-/

set_option autoImplicit false

namespace DataAccess

/-- The number that a text denotes. -/
def Double.ofText? (s : String) : Option Double :=
  match s with
  | "NaN" => some .notANumber
  | "Infinity" => some (.infinity false)
  | "-Infinity" => some (.infinity true)
  | _ => ((SignedDecimal.read? s.toList).bind SignedDecimal.toBinary64).map .finite

namespace Bson

/-- A plain number. -/
def ofPlain (n : Number) : Bson :=
  match n.asSigned? with
  | some i => if -2 ^ 31 ≤ i ∧ i < 2 ^ 31 then .int32 i else .int64 i
  | none => .double (.finite n.toBinary64)

/-- A signed word of so many bits, written as a text. -/
def wordOfText? (bits : Nat) (s : String) : Option Int :=
  (SignedDecimal.readInt? s.toList).bind fun i =>
    if -2 ^ (bits - 1) ≤ i ∧ i < 2 ^ (bits - 1) then some i else none

/-- The sixteen bytes of a unique identifier as binary data. -/
def ofIdentifier? (s : String) : Option Bson := do
  let bytes ← Text.hexBytes? (s.toList.filter (· != '-'))
  let letters := Base64Url.encode bytes
  let plain (c : Char) : Char := if c = '-' then '+' else if c = '_' then '/' else c
  if bytes.length = 16 then some (.binary (String.ofList (letters.map plain ++ ['=', '='])) 4)
  else none

/-- The text under a key. -/
def textUnder? (d : BsonDocument) (key : String) : Option String :=
  (Keyed.get? d key).bind asString?

/-- The count under a key. -/
def countUnder? (d : BsonDocument) (key : String) : Option Nat :=
  (Keyed.get? d key).bind asCount?

/-- How the payload under a key that names a kind is read; nothing for an ordinary key. -/
def tagReader? (key : String) : Option (Bson → Option Bson) :=
  let ofText (read : String → Option Bson) : Option (Bson → Option Bson) :=
    some fun v => v.asString?.bind read
  let ofFields (read : BsonDocument → Option Bson) : Option (Bson → Option Bson) :=
    some fun v => v.asDocument?.bind read
  match key with
  | "$oid" => ofText fun s => .objectId <$> ObjectId.ofText? s
  | "$numberInt" => ofText fun s => .int32 <$> wordOfText? 32 s
  | "$numberLong" => ofText fun s => .int64 <$> wordOfText? 64 s
  | "$numberDouble" => ofText fun s => .double <$> Double.ofText? s
  | "$numberDecimal" => ofText fun s => .decimal <$> Decimal128.ofText? s
  | "$symbol" => ofText fun s => some (.symbol s)
  | "$uuid" => ofText ofIdentifier?
  | "$code" => ofText fun s => some (.code s)
  | "$date" => some fun
    | .int64 millis => some (.instant millis)
    | .string s => (Notation.offsetForm s.toList).map fun t => .instant t.millis
    | _ => none
  | "$undefined" => some fun _ => some .undefined
  | "$minKey" => some fun _ => some .minKey
  | "$maxKey" => some fun _ => some .maxKey
  | "$timestamp" => ofFields fun d => do
    some (.timestamp (← countUnder? d "t") (← countUnder? d "i"))
  | "$binary" => ofFields fun d => do
    let [subtype] ← Text.hexBytes? (← textUnder? d "subType").toList | none
    some (.binary (← textUnder? d "base64") subtype)
  | "$regularExpression" => ofFields fun d => do
    let options ← textUnder? d "options"
    some (.regex (← textUnder? d "pattern")
      (String.ofList (options.toList.mergeSort fun a b => decide (a ≤ b))))
  | "$dbPointer" => ofFields fun d =>
    match textUnder? d "$ref", Keyed.get? d "$id" with
    | some collection, some (.objectId digits) => some (.pointer collection digits)
    | _, _ => none
  | _ => none

/-- The value that a document of read entries stands for; nothing when its payload is malformed.  A
code may carry a scope beside it. -/
def ofTags? (fields : BsonDocument) : Option Bson :=
  match fields with
  | [(key, v)] =>
    match tagReader? key with
    | some read => read v
    | none => some (.document fields)
  | _ =>
    match textUnder? fields "$code", Keyed.get? fields "$scope" with
    | some text, some (.document scope) => some (.codeWithScope text scope)
    | _, _ => some (.document fields)

theorem ofTags?_ordinary {key : String} (h : tagReader? key = none) (v : Bson) :
    ofTags? [(key, v)] = some (.document [(key, v)]) := by
  simp [ofTags?, h]

mutual

/-- The value that extended JSON denotes. -/
def ofExtended? : Json → Option Bson
  | .null => some .null
  | .bool b => some (.bool b)
  | .number n => some (ofPlain n)
  | .string s => some (.string s)
  | .array items => .array <$> ofExtendedItems? items
  | .object fields => (ofExtendedFields? fields).bind ofTags?

/-- The items of an array in extended JSON. -/
def ofExtendedItems? : List Json → Option (List Bson)
  | [] => some []
  | x :: rest => do some ((← ofExtended? x) :: (← ofExtendedItems? rest))

/-- The entries of an object in extended JSON. -/
def ofExtendedFields? : List (String × Json) → Option (List (String × Bson))
  | [] => some []
  | (key, x) :: rest => do some ((key, ← ofExtended? x) :: (← ofExtendedFields? rest))

end

end Bson

end DataAccess
