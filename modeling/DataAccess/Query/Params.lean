import DataAccess.Query.Condition
import DataAccess.Schema.Validation
/-
**Parameters of a request.**  Fields, conditions and sort clauses arrive as texts and are checked
against the schema of the base table.  Dotted tokens are only set apart here; they belong to the
relations.

Main definitions:

* `splitList` — the tokens of a comma-separated parameter;
* `Schema.validateFields` — plain and dotted fields;
* `WhereCondition.ofParam`, `WhereCondition.ofMap` — the two notations of conditions;
* `Schema.checkOperand`, `Schema.validateCondition` — conditions against a schema;
* `Schema.parseSort` — sort clauses.

Main results:

* `Schema.validateCondition_column` — validation changes neither the column nor the operator.
-/

set_option autoImplicit false

namespace DataAccess

/-- The tokens of a comma-separated parameter, trimmed, the empty ones dropped. -/
def splitList (raw : String) : List String :=
  ((Text.splitOn ',' raw).map Text.trimmed).filter fun token => token ≠ ""

/-! ### Fields -/

/-- Adds a name unless it is there. -/
def addNew (names : List String) (name : String) : List String :=
  if names.contains name then names else names ++ [name]

namespace Schema

/-- Sets plain fields apart from dotted ones; every plain field must exist and counts once. -/
def validateFields (s : Schema) (fields : List String) : Outcome (List String × List String) :=
  go [] [] fields
where
  /-- The loop over the tokens with the plain and the dotted ones found so far. -/
  go (plain deep : List String) : List String → Outcome (List String × List String)
    | [] => .ok (plain, deep)
    | field :: rest =>
      if field.toList.contains '.' then go plain (deep ++ [field]) rest
      else if s.hasColumn field then go (addNew plain field) deep rest
      else .error (.unknownField field s.table)

end Schema

/-! ### Conditions -/

namespace WhereCondition

/-- The condition of a parameter `column[operator]=value`; without brackets it is an equality. -/
def ofParam (name value : String) : WhereCondition :=
  let bracketed := match name.toList.reverse with
    | ']' :: rest => Text.cut '[' (String.ofList rest.reverse)
    | _ => none
  match bracketed with
  | some (column, op) => ⟨column, .ofNameOrEquals op, .string value⟩
  | none => ⟨name, .equals, .string value⟩

/-- The conditions of an object of columns; a bare value is an equality, an object lists operators
with their values. -/
def ofMap (columns : Record) : List WhereCondition :=
  columns.flatMap fun (column, spec) =>
    match spec with
    | .object operators =>
      operators.map fun (op, value) => ⟨column, .ofNameOrEquals op, value⟩
    | value => [⟨column, .equals, value⟩]

end WhereCondition

namespace Schema

/-- The operand of a condition on a field, checked and normalised.  Unary operators take no value,
list operators check every element, and a search pattern is taken as text. -/
def checkOperand (s : Schema) (field : String) (c : WhereCondition) : Outcome Json :=
  match c.operator with
  | .null | .notNull => .ok .null
  | .isIn | .notIn => (c.values.mapM (s.validateValue field)).map Json.array
  | .search =>
    if s.hasColumn field then
      match c.value with
      | .string text => .ok (.string text)
      | .null => .error (.validation s!"{field} search requires a value")
      | v => .ok (.string v.text)
    else .error (.validation (Issue.message (.unknownColumn field)))
  | _ => s.validateValue field c.value

/-- A condition on the base table, checked and normalised. -/
def validateCondition (s : Schema) (c : WhereCondition) : Outcome WhereCondition :=
  if s.hasColumn c.column then
    (s.checkOperand c.column c).map fun value => { c with value }
  else .error (.unknownField c.column s.table)

theorem validateCondition_column {s : Schema} {c validated : WhereCondition}
    (h : s.validateCondition c = .ok validated) :
    validated.column = c.column ∧ validated.operator = c.operator := by
  unfold validateCondition at h
  split at h
  · cases hv : s.checkOperand c.column c with
    | error e => simp [hv, Except.map] at h
    | ok v =>
      simp only [hv, Except.map, Except.ok.injEq] at h
      subst h
      exact ⟨rfl, rfl⟩
  · simp at h

/-! ### Sort clauses -/

/-- One sort token `column.direction`.  A dotted column is dropped, as there is no order by a joined
table. -/
def parseSortToken (s : Schema) (token : String) : Outcome (Option SortCondition) := do
  let clause (column : String) (direction : Direction) : Outcome (Option SortCondition) :=
    if column.toList.contains '.' then .ok none
    else if s.hasColumn column then .ok (some ⟨column, direction⟩)
    else .error (.unknownField column s.table)
  match Text.cutLast '.' token with
  | some (column, suffix) =>
    if suffix = "asc" then clause column .ascending
    else if suffix = "desc" then clause column .descending
    else if s.hasColumn column then
      .error (.validation s!"Invalid sort direction {suffix} for {column}")
    else .ok none
  | none => .error (.validation s!"Invalid sort param {token}, missing direction")

/-- The sort clauses of a parameter. -/
def parseSort (s : Schema) (raw : String) : Outcome (List SortCondition) := do
  return (← (splitList raw).mapM s.parseSortToken).filterMap id

end Schema

end DataAccess
