import DataAccess.Query.Relations
import DataAccess.Query.Pagination
/-
**Requests.**  The parameters of a request — fields, relations, conditions, sort clauses and a page
— are read in order into one checked query.  A parameter that is not reserved is a condition;
conditions are checked after everything else.

Main definitions:

* `Query` — a checked request;
* `QueryLimits` — the page size by default and the greatest one;
* `SchemaRegistry.parseWhere` — the conditions of an object of columns;
* `SchemaRegistry.parseQuery` — a list of parameters as a query.

Main results:

* `QueryLimits.check_le` — an accepted limit is positive and within bounds.
-/

set_option autoImplicit false

namespace DataAccess

/-- A checked request. -/
structure Query where
  /-- The projected fields of the base table; without any every column. -/
  fields : Option (List String)
  relations : List RelationNode
  /-- Conditions on the base table and on joined tables, all of which must hold. -/
  conditions : List WhereCondition
  sort : List SortCondition
  limit : Nat
  offset : Nat
deriving Repr

/-- The page size by default and the greatest one. -/
structure QueryLimits where
  standard : Nat
  greatest : Nat
deriving DecidableEq, Repr

/-- The page sizes of a configuration. -/
def Config.limits (c : Config) : QueryLimits := ⟨c.defaultLimit, c.maxLimit⟩

namespace QueryLimits

/-- An accepted limit is positive and no greater than the bound. -/
def check (l : QueryLimits) (limit : Nat) : Outcome Nat :=
  if limit = 0 then .error (.validation "limit must be greater than 0")
  else if l.greatest < limit then
    .error (.validation s!"limit {limit} exceeds maximum of {l.greatest}")
  else .ok limit

theorem check_le {l : QueryLimits} {limit accepted : Nat} (h : l.check limit = .ok accepted) :
    accepted = limit ∧ 0 < limit ∧ limit ≤ l.greatest := by
  unfold check at h
  split at h
  · simp at h
  · split at h
    · simp at h
    · simp only [Except.ok.injEq] at h
      omega

end QueryLimits

/-- A number parameter. -/
def parseCount (name raw : String) : Outcome Nat :=
  match parseUnsigned? (Text.trim raw.toList) with
  | some n => .ok n
  | none => .error (.validation s!"{name} must be a non-negative integer")

/-- A request whose conditions are not checked yet and whose relations are kept apart. -/
structure QueryDraft where
  fields : Option (List String)
  conditions : List WhereCondition
  sort : List SortCondition
  limit : Nat
  offset : Nat
deriving Repr

namespace SchemaRegistry

variable {m : Type → Type} [Monad m]

/-- Reads one parameter into a draft. -/
def readParam (r : SchemaRegistry m) (l : QueryLimits) (s : Schema) (draft : QueryDraft)
    (param : String × String) : Resolving m QueryDraft := do
  let (name, value) := param
  match name with
  | "fields" =>
    let (plain, deep) ← liftExcept (s.validateFields (splitList value))
    deep.forM (r.resolveField s)
    -- relations alone do not restrict the fields of the base table
    if plain.isEmpty then return draft
    else return { draft with fields := some (draft.fields.getD [] ++ plain) }
  | "relations" =>
    (splitList value).forM (r.resolveRelation s)
    return draft
  | "sort" => return { draft with sort := draft.sort ++ (← liftExcept (s.parseSort value)) }
  | "limit" => return { draft with limit := ← liftExcept (parseCount "limit" value >>= l.check) }
  | "offset" => return { draft with offset := ← liftExcept (parseCount "offset" value) }
  | "page" =>
    let window ← liftExcept (Window.decode value)
    return { draft with limit := ← liftExcept (l.check window.limit), offset := window.offset }
  | _ => return { draft with conditions := draft.conditions ++ [WhereCondition.ofParam name value] }

/-- Checks one condition, on the base table or on a joined one. -/
def validateWhere (r : SchemaRegistry m) (s : Schema) (c : WhereCondition) :
    Resolving m WhereCondition :=
  if c.isDeep then r.resolveWhere s c else liftExcept (s.validateCondition c)

/-- The checked conditions of an object of columns. -/
def parseWhere (r : SchemaRegistry m) (s : Schema) (columns : Record) :
    Resolving m (List WhereCondition) :=
  (WhereCondition.ofMap columns).mapM (r.validateWhere s)

/-- The parameters of a request, in order, as a query. -/
def parseQuery (r : SchemaRegistry m) (l : QueryLimits) (s : Schema)
    (params : List (String × String)) : ExceptT DataError m Query := do
  let start : QueryDraft :=
    { fields := none, conditions := [], sort := [], limit := l.standard, offset := 0 }
  let reading : Resolving m Query := do
    let draft ← params.foldlM (r.readParam l s) start
    -- conditions come last, so a fault of any other parameter is reported first
    let conditions ← draft.conditions.mapM (r.validateWhere s)
    return { draft with conditions, relations := ← get }
  let (result, _) ← ExceptT.lift (reading.run.run [])
  liftExcept result

end SchemaRegistry

end DataAccess
