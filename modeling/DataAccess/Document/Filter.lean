import DataAccess.Document.Order
import DataAccess.Document.Pattern
import DataAccess.Schema.Coercion
import DataAccess.Json.Printer
/-
**Document filters.**  Document backends take their conditions as documents: every key names a field
with what is asked of it, and `$and` and `$or` combine filters.  A field is compared loosely: a
missing field counts as null, and numbers compare by size whatever their notation.

Main definitions:

* `Filter` — a filter, written as a document;
* `Filter.equal` — loose equality of a stored value and an operand;
* `Filter.meets` — one operator on a field;
* `Filter.accepts` — whether a document passes a filter;
* `Filter.ofCondition` — the filter of a condition;
* `Filter.all` — the filter that asks for all of several.

Main results:

* `Filter.accepts_empty` — the empty filter accepts every document;
* `Filter.equal_null` — a field equals null exactly when it is missing or null.
-/

set_option autoImplicit false

namespace DataAccess

/-- A filter, written as a document. -/
abbrev Filter := Json

namespace Filter

/-! ### Operators -/

/-- The order of a stored value and an operand; a missing value has none. -/
def compare? (stored : Option Json) (operand : Json) : Option Ordering :=
  stored.bind fun v => v.compare? operand

/-- Loose equality of a stored value and an operand. -/
def equal (stored : Option Json) (operand : Json) : Bool :=
  match stored with
  | none | some .null => operand.isNull
  | some v => v.compare? operand == some .eq || v.same operand

theorem equal_null {stored : Option Json} :
    equal stored .null = true ↔ stored = none ∨ stored = some .null := by
  cases stored with
  | none => simp [equal, Json.isNull]
  | some v => cases v <;> simp [equal, Json.isNull, Json.compare?, Json.same]

/-- Whether an operand lists a value that equals a stored one; an operand that is no list decides
nothing. -/
def listed? (stored : Option Json) (operand : Json) : Option Bool :=
  operand.asList?.map fun items => items.any (equal stored)

/-- Whether letter case is ignored: the options of the pattern hold an `i`. -/
def ignoresCase (operators : Record) : Bool :=
  match operators.get? "$options" with
  | some (.string options) => options.toList.contains 'i'
  | _ => false

/-- Whether a stored text holds a pattern; what is no pattern occurs nowhere. -/
def holdsPattern (stored : Option Json) (operand : Json) (ignoreCase : Bool) : Bool :=
  match stored, operand with
  | some (.string text), .string pattern =>
    ((Pattern.ofText? pattern).map fun p => p.occursIn ignoreCase text).getD false
  | _, _ => false

/-- One operator on a field, among the operators it is listed with. -/
def meets (stored : Option Json) (operators : Record) (operator : String) (operand : Json) : Bool :=
  match operator with
  | "$eq" => equal stored operand
  | "$ne" => !equal stored operand
  | "$gt" => compare? stored operand == some .gt
  | "$gte" => compare? stored operand == some .gt || compare? stored operand == some .eq
  | "$lt" => compare? stored operand == some .lt
  | "$lte" => compare? stored operand == some .lt || compare? stored operand == some .eq
  | "$in" => (listed? stored operand).getD false
  | "$nin" => !(listed? stored operand).getD false
  | "$regex" => holdsPattern stored operand (ignoresCase operators)
  | "$options" => true
  | _ => false

/-- Whether an object lists operators: it is not empty and each of its keys starts with a dollar
sign. -/
def isOperators (fields : Record) : Bool :=
  !fields.isEmpty && fields.all fun entry => entry.1.toList.head? == some '$'

/-- Whether a stored value meets what is asked of its field: operators, or else a literal value. -/
def admits (stored : Option Json) (asked : Json) : Bool :=
  match asked with
  | .object fields =>
    if isOperators fields then fields.all fun entry => meets stored fields entry.1 entry.2
    else equal stored asked
  | literal => equal stored literal

/-! ### Filters -/

mutual

/-- Whether a document passes a filter; what is no document passes nothing. -/
def accepts (doc : Record) : Filter → Bool
  | .object clauses => acceptsClauses doc clauses
  | _ => false

/-- Whether a document passes every clause of a filter. -/
def acceptsClauses (doc : Record) : List (String × Json) → Bool
  | [] => true
  | (key, asked) :: rest =>
    (if key = "$and" then acceptsEvery doc asked
     else if key = "$or" then acceptsSome doc asked
     else admits (Keyed.get? doc key) asked) && acceptsClauses doc rest

/-- Whether a document passes every filter of a list. -/
def acceptsEvery (doc : Record) : Json → Bool
  | .array filters => acceptsAll doc filters
  | _ => false

/-- Whether a document passes some filter of a list. -/
def acceptsSome (doc : Record) : Json → Bool
  | .array filters => acceptsAny doc filters
  | _ => false

/-- Whether a document passes all of these filters. -/
def acceptsAll (doc : Record) : List Json → Bool
  | [] => true
  | f :: rest => accepts doc f && acceptsAll doc rest

/-- Whether a document passes one of these filters. -/
def acceptsAny (doc : Record) : List Json → Bool
  | [] => false
  | f :: rest => accepts doc f || acceptsAny doc rest

end

@[simp] theorem accepts_empty (doc : Record) : accepts doc (.object []) = true := rfl

theorem acceptsAll_eq (doc : Record) (filters : List Filter) :
    acceptsAll doc filters = filters.all (accepts doc) := by
  induction filters with
  | nil => rfl
  | cons f rest ih => simp [acceptsAll, ih]

/-! ### The filters of conditions -/

/-- What a condition asks of its field. -/
def asked (type : ColumnType) (operator : Operator) (value : Json) : Json :=
  let stored (v : Json) : Json := coerceWrite type v .native
  let listed : Json := .array ((listValues value).map stored)
  match operator with
  | .equals => .object [("$eq", stored value)]
  | .notEquals => .object [("$ne", stored value)]
  | .gt => .object [("$gt", stored value)]
  | .gte => .object [("$gte", stored value)]
  | .lt => .object [("$lt", stored value)]
  | .lte => .object [("$lte", stored value)]
  | .search =>
    .object [("$regex", .string (Pattern.escape value.bareText)), ("$options", .string "i")]
  | .isIn => .object [("$in", listed)]
  | .notIn => .object [("$nin", listed)]
  | .null => .object [("$eq", .null)]
  | .notNull => .object [("$ne", .null)]

/-- The filter of a condition on a field of some type. -/
def ofCondition (field : String) (type : ColumnType) (operator : Operator) (value : Json) :
    Filter :=
  .object [(field, asked type operator value)]

/-- The filter that asks for all of several filters. -/
def all : List Filter → Filter
  | [] => .object []
  | [f] => f
  | filters => .object [("$and", .array filters)]

end Filter

end DataAccess
