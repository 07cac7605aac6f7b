import DataAccess.Sql.Dialect
/-
**Statements as tokens.**  A statement is written once as a list of tokens — fixed text, names,
slots for values, the pattern operator, the page clause — and rendered for a dialect.  Values never
enter the text: a slot becomes the dialect's mark, and its value goes into the list of bound values
at the same position.

Main definitions:

* `Token`, `Statement` — the tokens and lists of them;
* `Statement.render` — the text for a dialect, its slots numbered from left to right;
* `Statement.params` — the bound values for a dialect;
* `CompiledQuery`, `Statement.compile` — both together.

Main results:

* `Statement.renderFrom_append` — the text of a concatenation continues the numbering;
* `Statement.params_append` — the values of a concatenation are the concatenated values;
* `Statement.length_params` — there are as many values as slots.
-/

set_option autoImplicit false

namespace DataAccess

/-- A part of a statement, the same for every dialect. -/
inductive Token
  /-- Text that every dialect spells alike. -/
  | text (s : String)
  /-- A name, which every dialect quotes in its own way. -/
  | name (ident : String)
  /-- A place for a value of a column of some type. -/
  | slot (type : ColumnType) (value : Json)
  /-- The operator of a pattern match that ignores letter case. -/
  | like
  /-- The clause that cuts a page; `ordered` tells whether an order comes before it. -/
  | window (limit offset : Nat) (ordered : Bool)
deriving Repr

/-- A statement. -/
abbrev Statement := List Token

/-- The text of a statement and the values bound to it. -/
structure CompiledQuery where
  sql : String
  params : List Json
deriving Repr

/-- Whether a token is a place for a value. -/
def Token.isSlot : Token → Bool
  | .slot _ _ => true
  | _ => false

/-- The text of a token; a slot is the mark with the number `n`. -/
def Token.render (d : Dialect) (n : Nat) : Token → String
  | .text s => s
  | .name ident => d.quote ident
  | .slot _ _ => d.placeholder n
  | .like => d.like
  | .window limit offset ordered => d.window limit offset ordered

/-- The value bound to a token, in the form that the dialect stores. -/
def Token.param (d : Dialect) : Token → Option Json
  | .slot type value => some (coerceWrite type value d.booleans)
  | _ => none

namespace Statement

/-- The number of slots. -/
def slots (s : Statement) : Nat := (s.filter Token.isSlot).length

/-- The text of a statement after `n` slots. -/
def renderFrom (d : Dialect) : Nat → Statement → String
  | _, [] => ""
  | n, t :: rest => t.render d (n + 1) ++ renderFrom d (if t.isSlot then n + 1 else n) rest

/-- The text of a statement. -/
def render (d : Dialect) (s : Statement) : String := renderFrom d 0 s

/-- The values bound to a statement, from left to right. -/
def params (d : Dialect) (s : Statement) : List Json := s.filterMap (Token.param d)

/-- The text and the values of a statement. -/
def compile (d : Dialect) (s : Statement) : CompiledQuery := ⟨s.render d, s.params d⟩

theorem renderFrom_nil (d : Dialect) (n : Nat) : renderFrom d n [] = "" := rfl

theorem renderFrom_text (d : Dialect) (n : Nat) (s : String) (rest : Statement) :
    renderFrom d n (.text s :: rest) = s ++ renderFrom d n rest := rfl

theorem renderFrom_name (d : Dialect) (n : Nat) (ident : String) (rest : Statement) :
    renderFrom d n (.name ident :: rest) = d.quote ident ++ renderFrom d n rest := rfl

theorem renderFrom_slot (d : Dialect) (n : Nat) (type : ColumnType) (v : Json) (rest : Statement) :
    renderFrom d n (.slot type v :: rest) = d.placeholder (n + 1) ++ renderFrom d (n + 1) rest := rfl

theorem renderFrom_append (d : Dialect) (n : Nat) (s t : Statement) :
    renderFrom d n (s ++ t) = renderFrom d n s ++ renderFrom d (n + slots s) t := by
  induction s generalizing n with
  | nil => simp [renderFrom, slots]
  | cons a rest ih =>
    cases ha : a.isSlot
    · simp [renderFrom, ih, ha, slots, String.append_assoc]
    · simp [renderFrom, ih, ha, slots, String.append_assoc, Nat.add_comm, Nat.add_left_comm]

theorem params_append (d : Dialect) (s t : Statement) :
    params d (s ++ t) = params d s ++ params d t := by
  simp [params]

theorem length_params (d : Dialect) (s : Statement) : (params d s).length = slots s := by
  induction s with
  | nil => rfl
  | cons a rest ih =>
    simp only [params, slots] at ih
    cases a <;>
      simp [params, slots, List.filterMap_cons, List.filter_cons, Token.param, Token.isSlot, ih]

end Statement

end DataAccess
