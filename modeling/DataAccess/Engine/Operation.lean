import DataAccess.Schema.Codec
import DataAccess.Json.Reader
/-
**Operations.**  Every request to the data access is one operation: a read, a write, or the creation
of a table.  Operations are written as JSON objects whose member `op` names the kind.

Main definitions:

* `Operation` — the ten kinds with what they need;
* `Operation.name`, `Operation.table`, `Operation.isWrite` — the views;
* `Operation.toJson`, `Operation.ofJson?` — the serialised form;
* `Operation.ofText?` — the operation of a JSON text.

Main results:

* `Operation.isWrite_iff` — the writes, by name.
-/

set_option autoImplicit false

namespace DataAccess

/-- The parameters of a request, in order. -/
abbrev Params := List (String × String)

/-- An operation on a table. -/
inductive Operation
  | createOne (table : String) (data : Record)
  | createMany (table : String) (data : Json)
  | updateOne (table : String) (id : Json) (data : Record)
  | updateMany (table : String) (data : Json)
  | deleteOne (table : String) (id : Json)
  | findOne (table : String) (params : Params)
  | findMany (table : String) (params : Params)
  | count (table : String) (params : Params)
  | uniqueCheck (table : String) (data : Record) (excluded : Option Json)
  | createTable (schema : Schema)
deriving Repr

namespace Operation

/-- The name of an operation's kind. -/
def name : Operation → String
  | .createOne _ _ => "create_one"
  | .createMany _ _ => "create_many"
  | .updateOne _ _ _ => "update_one"
  | .updateMany _ _ => "update_many"
  | .deleteOne _ _ => "delete_one"
  | .findOne _ _ => "find_one"
  | .findMany _ _ => "find_many"
  | .count _ _ => "count"
  | .uniqueCheck _ _ _ => "unique_check"
  | .createTable _ => "create_table"

/-- The table that an operation is about. -/
def table : Operation → String
  | .createOne table _ | .createMany table _ | .updateOne table _ _ | .updateMany table _
  | .deleteOne table _ | .findOne table _ | .findMany table _ | .count table _
  | .uniqueCheck table _ _ => table
  | .createTable schema => schema.table

/-- Whether an operation writes. -/
def isWrite : Operation → Bool
  | .findOne _ _ | .findMany _ _ | .count _ _ | .uniqueCheck _ _ _ => false
  | _ => true

theorem isWrite_iff (o : Operation) :
    o.isWrite = true ↔ o.name ∉ ["find_one", "find_many", "count", "unique_check"] := by
  cases o <;> simp [isWrite, name]

/-! ### The serialised form -/

/-- The parameters as a list of pairs. -/
def paramsJson (params : Params) : Json :=
  .array (params.map fun (name, value) => .array [.string name, .string value])

/-- The serialised form. -/
def toJson (o : Operation) : Json :=
  .object <| ("op", .string o.name) :: match o with
    | .createOne table data => [("table", .string table), ("data", .object data)]
    | .createMany table data | .updateMany table data =>
      [("table", .string table), ("data", data)]
    | .updateOne table id data =>
      [("table", .string table), ("id", id), ("data", .object data)]
    | .deleteOne table id => [("table", .string table), ("id", id)]
    | .findOne table params | .findMany table params | .count table params =>
      [("table", .string table), ("params", paramsJson params)]
    | .uniqueCheck table data excluded =>
      [("table", .string table), ("data", .object data), ("exclude_id", excluded.getD .null)]
    | .createTable schema => [("schema", schema.toJson)]

/-- A parameter: a list of exactly two texts. -/
def decodeParam : Decoder (String × String)
  | .array [.string name, .string value] => some (name, value)
  | _ => none

/-- A record, a repeated key counting as in any value. -/
def decodeRecord : Decoder Record := fun v => v.lastWins.asRecord?

/-- Any value. -/
def decodeAny : Decoder Json := fun v => some v.lastWins

/-- The kind of an operation and its other members; in an array the kind comes first. -/
def splitKind : Decoder (String × Json)
  | .object fields =>
    match fields.filter fun entry => entry.1 = "op" with
    | [(_, .string kind)] => some (kind, .object (fields.filter fun entry => entry.1 ≠ "op"))
    | _ => none
  | .array (.string kind :: rest) => some (kind, .array rest)
  | _ => none

/-- The operation that a value describes. -/
def ofJson? : Decoder Operation := fun v => do
  let (kind, rest) ← splitKind v
  let members (names : List String) : Option Members := Members.of? names rest
  let params (build : String → Params → Operation) : Option Operation := do
    let m ← members ["table", "params"]
    some (build (← m.required "table" Json.asString?)
      (← m.defaulted "params" (decodeList decodeParam) []))
  let batch (build : String → Json → Operation) : Option Operation := do
    let m ← members ["table", "data"]
    some (build (← m.required "table" Json.asString?) (← m.required "data" decodeAny))
  match kind with
  | "create_one" => do
    let m ← members ["table", "data"]
    some (.createOne (← m.required "table" Json.asString?) (← m.required "data" decodeRecord))
  | "create_many" => batch .createMany
  | "update_one" => do
    let m ← members ["table", "id", "data"]
    some (.updateOne (← m.required "table" Json.asString?) (← m.required "id" decodeAny)
      (← m.required "data" decodeRecord))
  | "update_many" => batch .updateMany
  | "delete_one" => do
    let m ← members ["table", "id"]
    some (.deleteOne (← m.required "table" Json.asString?) (← m.required "id" decodeAny))
  | "find_one" => params .findOne
  | "find_many" => params .findMany
  | "count" => params .count
  | "unique_check" => do
    let m ← members ["table", "data", "exclude_id"]
    some (.uniqueCheck (← m.required "table" Json.asString?) (← m.required "data" decodeRecord)
      (← m.nullable "exclude_id" decodeAny))
  | "create_table" => do
    let m ← members ["schema"]
    some (.createTable (← m.required "schema" Schema.ofJson?))
  | _ => none

/-- The operation that a JSON text describes. -/
def ofText? (text : String) : Option Operation := Json.readEntries? text >>= ofJson?

end Operation

end DataAccess
