/-
**Errors.**  Every failure that leaves this library is one of the causes below.  A backend's own
failure is classified into them at the boundary and does not travel further in raw form.

Main definitions:

* `DataError` — the causes;
* `DataError.message` — the wording, in one place;
* `ErrorKind`, `DataError.kind`, `ErrorKind.code` — the stable codes for outcomes reported as data;
* `DataError.isConstraintViolation` — the causes that come from a constraint of the storage;
* `Outcome` — a value or an error;
* `NativeError` — a failure as a backend reports it.

Main results:

* `DataError.kind_ne_unknown_of_constraint` — a constraint violation is never reported as unknown.
-/

set_option autoImplicit false

namespace DataAccess

/-- Why an operation failed. -/
inductive DataError
  /-- The backend has no columns for the table. -/
  | schemaNotFound (table : String)
  /-- The table has no primary key column. -/
  | noPrimaryKey (table : String)
  /-- The field does not exist on the table. -/
  | unknownField (field table : String)
  /-- The relation does not exist on the table. -/
  | unknownRelation (relation table : String)
  /-- A value, a record or a request was refused. -/
  | validation (reason : String)
  /-- The record does not exist. -/
  | recordNotFound (id : String)
  /-- A unique constraint was violated. -/
  | duplicateRecord
  /-- A foreign key constraint was violated. -/
  | foreignKeyViolation
  /-- Null was written to a required field. -/
  | notNullViolation
  /-- A check constraint was violated. -/
  | checkConstraintViolation
  /-- The backend failed in a way that is not classified. -/
  | backend (reason : String)
  /-- No connection could be established. -/
  | connection (reason : String)
  /-- The configuration is invalid. -/
  | config (reason : String)
deriving DecidableEq, Repr

/-- The kind of an error, used where outcomes are reported as data. -/
inductive ErrorKind
  | schemaNotFound
  | noPrimaryKey
  | unknownField
  | unknownRelation
  | validationError
  | recordNotFound
  | duplicateRecord
  | foreignKeyViolation
  | notNullViolation
  | checkConstraintViolation
  | unknownError
deriving DecidableEq, Repr

/-- A value or an error. -/
abbrev Outcome := Except DataError

/-- The stable code of a kind. -/
def ErrorKind.code : ErrorKind → String
  | .schemaNotFound => "SCHEMA_NOT_FOUND"
  | .noPrimaryKey => "NO_PRIMARY_KEY"
  | .unknownField => "UNKNOWN_FIELD"
  | .unknownRelation => "UNKNOWN_RELATION"
  | .validationError => "VALIDATION_ERROR"
  | .recordNotFound => "RECORD_NOT_FOUND"
  | .duplicateRecord => "DUPLICATE_RECORD"
  | .foreignKeyViolation => "FOREIGN_KEY_VIOLATION"
  | .notNullViolation => "NOT_NULL_VIOLATION"
  | .checkConstraintViolation => "CHECK_CONSTRAINT_VIOLATION"
  | .unknownError => "UNKNOWN_ERROR"

namespace DataError

/-- The wording of an error. -/
def message : DataError → String
  | schemaNotFound table => s!"Schema not found for {table}"
  | noPrimaryKey table => s!"No primary key found for table {table}"
  | unknownField field table => s!"Field {field} not found in table schema for {table}"
  | unknownRelation relation table => s!"Relation {relation} not found in schema for {table}"
  | validation reason => reason
  | recordNotFound id => s!"Record with id {id} not found"
  | duplicateRecord => "Error inserting record as a duplicate already exists"
  | foreignKeyViolation => "Foreign key constraint violation"
  | notNullViolation => "Cannot insert null value into required field"
  | checkConstraintViolation => "Check constraint violation"
  | backend reason => s!"Database error occurred: {reason}"
  | connection reason => s!"Error creating database connection: {reason}"
  | config reason => s!"Configuration error: {reason}"

/-- The kind of an error; backend, connection and configuration failures share one kind. -/
def kind : DataError → ErrorKind
  | schemaNotFound _ => .schemaNotFound
  | noPrimaryKey _ => .noPrimaryKey
  | unknownField _ _ => .unknownField
  | unknownRelation _ _ => .unknownRelation
  | validation _ => .validationError
  | recordNotFound _ => .recordNotFound
  | duplicateRecord => .duplicateRecord
  | foreignKeyViolation => .foreignKeyViolation
  | notNullViolation => .notNullViolation
  | checkConstraintViolation => .checkConstraintViolation
  | backend _ | connection _ | config _ => .unknownError

/-- The stable code of an error. -/
def code (e : DataError) : String := e.kind.code

/-- Whether an error comes from a constraint of the storage. -/
def isConstraintViolation : DataError → Bool
  | duplicateRecord | foreignKeyViolation | notNullViolation | checkConstraintViolation => true
  | _ => false

theorem kind_ne_unknown_of_constraint {e : DataError} (h : e.isConstraintViolation = true) :
    e.kind ≠ .unknownError := by
  cases e <;> simp_all [isConstraintViolation, kind]

end DataError

/-! ### Failures of backends -/

/-- A failure as the backend reports it. -/
structure NativeError where
  /-- The backend's own code, if it gives one. -/
  code : Option String
  message : String
deriving DecidableEq, Repr

/-- The failure as an error that is not classified further. -/
def NativeError.unclassified (e : NativeError) : DataError := .backend e.message

end DataAccess
