import DataAccess.Json.Decode
import DataAccess.Text.Blank
import DataAccess.Text.Split
/-
**Conditions and sort clauses.**  A request filters by conditions, each a column, an operator and a
value, and orders by sort clauses.  The column of a condition may be dotted and then addresses a
joined table.

Main definitions:

* `Operator` — the eleven operators and their names;
* `WhereCondition` — a condition; `WhereCondition.isDeep` — whether it addresses a joined table;
* `listValues` — the elements of a list operand;
* `Direction`, `SortCondition` — sort clauses.

Main results:

* `Operator.ofName?_name` — every operator is found under its name;
* `listValues_array` — a literal array is its own list of elements.
-/

set_option autoImplicit false

namespace DataAccess

/-! ### Operators -/

/-- A filter operator. -/
inductive Operator
  | equals
  | notEquals
  | gt
  | gte
  | lt
  | lte
  /-- The text holds the operand, letter case aside. -/
  | search
  | isIn
  | notIn
  | null
  | notNull
deriving DecidableEq, Repr

namespace Operator

/-- The operators under their names. -/
def names : List (String × Operator) :=
  [("equals", .equals), ("not_equals", .notEquals), ("gt", .gt), ("gte", .gte), ("lt", .lt),
   ("lte", .lte), ("search", .search), ("in", .isIn), ("not_in", .notIn), ("null", .null),
   ("not_null", .notNull)]

/-- The name of an operator. -/
def name : Operator → String
  | .equals => "equals"
  | .notEquals => "not_equals"
  | .gt => "gt"
  | .gte => "gte"
  | .lt => "lt"
  | .lte => "lte"
  | .search => "search"
  | .isIn => "in"
  | .notIn => "not_in"
  | .null => "null"
  | .notNull => "not_null"

/-- The operator with a name. -/
def ofName? (name : String) : Option Operator := Keyed.get? names name

/-- The operator with a name; an unknown name means equality. -/
def ofNameOrEquals (name : String) : Operator := (ofName? name).getD .equals

@[simp] theorem ofName?_name (op : Operator) : ofName? op.name = some op := by
  cases op <;> decide

/-- Whether the operator takes a list of values. -/
def isList : Operator → Bool
  | .isIn | .notIn => true
  | _ => false

/-- Whether the operator takes no value. -/
def isUnary : Operator → Bool
  | .null | .notNull => true
  | _ => false

end Operator

/-! ### Conditions -/

/-- The elements of a list operand: a literal array, a text split at commas, nothing for null, and
otherwise the value itself. -/
def listValues : Json → List Json
  | .array items => items
  | .string s => (Text.splitOn ',' s).map fun piece => .string (Text.trimmed piece)
  | .null => []
  | v => [v]

@[simp] theorem listValues_array (items : List Json) : listValues (.array items) = items := rfl

/-- A filter on a column. -/
structure WhereCondition where
  column : String
  operator : Operator
  value : Json
deriving Repr

namespace WhereCondition

/-- Whether the column addresses a joined table. -/
def isDeep (c : WhereCondition) : Bool := c.column.toList.contains '.'

/-- The relation path and the field of a dotted column. -/
def path? (c : WhereCondition) : Option (String × String) := Text.cutLast '.' c.column

/-- The elements of the operand of a list operator. -/
def values (c : WhereCondition) : List Json := listValues c.value

/-- The names of the members. -/
def memberNames : List String := ["column", "operator", "value"]

/-- The serialised form. -/
def toJson (c : WhereCondition) : Json :=
  .object
    [("column", .string c.column), ("operator", .string c.operator.name), ("value", c.value)]

/-- The condition that a value describes. -/
def ofJson? : Decoder WhereCondition := fun v => do
  let m ← Members.of? memberNames v
  some
    { column := ← m.required "column" Json.asString?
      operator := ← m.required "operator" (decodeName Operator.names)
      value := ← m.defaulted "value" some .null }

end WhereCondition

/-! ### Sort clauses -/

/-- The direction of a sort clause. -/
inductive Direction
  | ascending
  | descending
deriving DecidableEq, Repr

namespace Direction

/-- The directions under their keywords. -/
def keywords : List (String × Direction) := [("ASC", .ascending), ("DESC", .descending)]

/-- The keyword of a direction. -/
def keyword : Direction → String
  | .ascending => "ASC"
  | .descending => "DESC"

end Direction

/-- An order by a column. -/
structure SortCondition where
  column : String
  direction : Direction
deriving DecidableEq, Repr

namespace SortCondition

/-- Whether the column addresses a joined table. -/
def isDeep (s : SortCondition) : Bool := s.column.toList.contains '.'

/-- The serialised form. -/
def toJson (s : SortCondition) : Json :=
  .object [("column", .string s.column), ("operator", .string s.direction.keyword)]

/-- The sort clause that a value describes. -/
def ofJson? : Decoder SortCondition := fun v => do
  let m ← Members.of? ["column", "operator"] v
  some
    { column := ← m.required "column" Json.asString?
      direction := ← m.required "operator" (decodeName Direction.keywords) }

end SortCondition

end DataAccess
