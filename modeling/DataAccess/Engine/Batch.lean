import DataAccess.Error
import DataAccess.Json.Printer
/-
**Batches.**  A batch write handles its items one after another; an item that fails is recorded with
its position and cause, and the batch goes on.

Main definitions:

* `BatchFailure`, `BatchReport` — what became of the items;
* `BatchReport.record` — the report with one more item;
* `batchItems`, `itemRecord` — the items of a payload and the record of an item.

Main results:

* `BatchReport.record_total` — every item is counted once, as a success or as a failure.
-/

set_option autoImplicit false

namespace DataAccess

/-- An item that failed. -/
structure BatchFailure where
  /-- The position in the payload, counted from zero. -/
  item : Nat
  cause : DataError
deriving DecidableEq, Repr

/-- What became of the items of a batch. -/
structure BatchReport where
  failures : List BatchFailure
  /-- The rows of the items that succeeded, in the order of the payload. -/
  rows : List Record
deriving Repr

namespace BatchReport

/-- The report on no items. -/
def empty : BatchReport := ⟨[], []⟩

/-- The number of items reported on. -/
def total (r : BatchReport) : Nat := r.rows.length + r.failures.length

/-- The report with one more item. -/
def record (r : BatchReport) (item : Nat) : Outcome Record → BatchReport
  | .ok row => { r with rows := r.rows ++ [row] }
  | .error cause => { r with failures := r.failures ++ [⟨item, cause⟩] }

@[simp] theorem record_total (r : BatchReport) (item : Nat) (outcome : Outcome Record) :
    (r.record item outcome).total = r.total + 1 := by
  cases outcome <;> simp [record, total] <;> omega

/-- The serialised form. -/
def toJson (r : BatchReport) : Json :=
  .object
    [("total", .nat r.total), ("successful", .nat r.rows.length),
     ("errored", .nat r.failures.length),
     ("errors", .array (r.failures.map fun f => .object
      [("item", .nat f.item), ("message", .string f.cause.message),
       ("error", .string f.cause.code)])),
     ("data", .array (r.rows.map Json.object))]

end BatchReport

/-- The items of a payload. -/
def batchItems : Json → Outcome (List Json)
  | .array items => .ok items
  | _ => .error (.validation "Batch payload must be an array of records")

/-- The record of an item. -/
def itemRecord : Json → Outcome Record
  | .object fields => .ok fields
  | v => .error (.validation ("Batch item must be an object, got " ++ v.text))

end DataAccess
