import DataAccess.Json.Basic
/-
**Decoding structures.**  Configurations, schemas and operations are written as JSON objects with
named members.  A structure may also be given as an array of its members in order.  Unknown members
are ignored, and a known member given twice is refused.

Main definitions:

* `Decoder` — a partial reading of values;
* `Members`, `Members.of?` — the members of one structure;
* `Members.required`, `Members.optional`, `Members.defaulted` — how a member is read;
* `decodeName` — a name out of a fixed list.
-/

set_option autoImplicit false

namespace DataAccess

/-- A partial reading of values. -/
abbrev Decoder (α : Type) := Json → Option α

/-- The members given for one structure. -/
structure Members where
  /-- Whether the members were given as an array. -/
  positional : Bool
  /-- The members that were given, by name. -/
  given : Keyed Json
deriving Repr

namespace Members

/-- The members of a structure with these member names. -/
def of? (names : List String) : Decoder Members
  | .object fields =>
    let known := fields.filter fun entry => names.contains entry.1
    if (known.map Prod.fst).Nodup then some ⟨false, known⟩ else none
  | .array items => if names.length < items.length then none else some ⟨true, names.zip items⟩
  | _ => none

/-- A member that must be given. -/
def required {α : Type} (m : Members) (name : String) (decode : Decoder α) : Option α :=
  m.given.get? name >>= decode

/-- A member that may be null, or absent unless the members are given as an array. -/
def optional {α : Type} (m : Members) (name : String) (decode : Decoder α) : Option (Option α) :=
  match m.given.get? name with
  | none => if m.positional then none else some none
  | some .null => some none
  | some v => some <$> decode v

/-- A member that may be null or absent. -/
def nullable {α : Type} (m : Members) (name : String) (decode : Decoder α) : Option (Option α) :=
  match m.given.get? name with
  | none | some .null => some none
  | some v => some <$> decode v

/-- A member with a default; null is a value like any other. -/
def defaulted {α : Type} (m : Members) (name : String) (decode : Decoder α) (default : α) :
    Option α :=
  match m.given.get? name with
  | none => some default
  | some v => decode v

@[simp] theorem defaulted_absent {α : Type} {m : Members} {name : String}
    (h : m.given.get? name = none) (decode : Decoder α) (default : α) :
    m.defaulted name decode default = some default := by
  simp [defaulted, h]

end Members

/-- A list whose items all decode. -/
def decodeList {α : Type} (decode : Decoder α) : Decoder (List α)
  | .array items => items.mapM decode
  | _ => none

/-- An object whose values all decode; a repeated key keeps its first place and its last value. -/
def decodeKeyed {α : Type} (decode : Decoder α) : Decoder (Keyed α)
  | .object fields => do
    let entries ← fields.mapM fun entry => do some (entry.1, ← decode entry.2)
    some (Keyed.ofEntries entries)
  | _ => none

/-- A natural number below a bound. -/
def decodeBelow (bound : Nat) : Decoder Nat := fun v =>
  v.asUnsigned?.bind fun n => if n < bound then some n else none

/-- A name out of a fixed list, also as the only key of an object with the value null. -/
def decodeName {α : Type} (table : List (String × α)) : Decoder α
  | .string name => Keyed.get? table name
  | .object [(name, .null)] => Keyed.get? table name
  | _ => none

end DataAccess
