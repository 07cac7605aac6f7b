import DataAccess.Schema.Basic
import DataAccess.Schema.Coercion
import DataAccess.Text.Split
/-
**Validating records.**  A record is checked key by key against the declared columns, every failure
is reported, and accepted values are normalised: numeric texts become numbers, boolean texts become
booleans.  Primary keys are matched by the backend as given and are not checked.

Main definitions:

* `Issue` — one reason to refuse a record, with its wording;
* `checkValue` — the value of a column, normalised or refused;
* `Schema.validateData` — the fields of a record;
* `Schema.validateRequired` — the same for an insert, where required fields must be present;
* `Verdict` — the outcome of validating a record.

Main results:

* `Schema.validateEntries_issues` — the issues come in the order of the record's keys;
* `Schema.validateRequired_of_noneMissing` — with nothing missing both checks agree.
-/

set_option autoImplicit false

namespace DataAccess

/-- One reason to refuse a record. -/
inductive Issue
  | unknownColumn (field : String)
  | required (field : String)
  | nullNotAllowed (field : String)
  | notNumber (field : String)
  | notString (field : String)
  | notBoolean (field : String)
  | notDate (field : String)
  | notListed (field : String) (allowed : List String)
deriving DecidableEq, Repr

/-- The wording of an issue. -/
def Issue.message : Issue → String
  | unknownColumn field => s!"Unknown column: {field}"
  | required field => s!"{field} is required"
  | nullNotAllowed field => s!"{field} should not be null"
  | notNumber field => s!"{field} must be a number"
  | notString field => s!"{field} must be a string"
  | notBoolean field => s!"{field} must be a boolean value"
  | notDate field => s!"{field} must be a valid ISO 8601 date string"
  | notListed field allowed =>
    s!"{field} must be one of the following values: " ++ Text.join ", " allowed

/-- The wording of a list of issues. -/
def Issue.messages (issues : List Issue) : String := Text.join ", " (issues.map Issue.message)

/-- A normalised record, or the issues in the order in which they were found. -/
abbrev Verdict := Except (List Issue) Record

/-- The verdict as an outcome. -/
def Verdict.outcome : Verdict → Outcome Record
  | .ok record => .ok record
  | .error issues => .error (.validation (Issue.messages issues))

/-- The booleans that callers may write: `true`, `1`, and the same as texts. -/
def strictBoolean : Json → Option Bool
  | .bool b => some b
  | .string s => [("true", true), ("1", true), ("false", false), ("0", false)].lookup s
  | .number n =>
    match n.asSigned? with
    | some 1 => some true
    | some 0 => some false
    | _ => none
  | _ => none

/-- The value of a column, normalised, or the reason to refuse it. -/
def checkValue (c : Column) (v : Json) : Except Issue Json :=
  if v.isNull then
    if c.nullable || !c.required then .ok .null else .error (.nullNotAllowed c.field)
  else
    match c.type with
    | .number =>
      match v with
      | .string s =>
        if (Text.trim s.toList).isEmpty then .error (.notNumber c.field)
        else (coerceNumber v).elim (.error (.notNumber c.field)) .ok
      | _ => (coerceNumber v).elim (.error (.notNumber c.field)) .ok
    | .string => if v.asString?.isSome then .ok v else .error (.notString c.field)
    | .boolean => (strictBoolean v).elim (.error (.notBoolean c.field)) fun b => .ok (.bool b)
    | .date =>
      if v.asString?.isSome && (parseTimestamp v).isSome then .ok v else .error (.notDate c.field)
    | .enum =>
      match v.asString? with
      | none => .error (.notString c.field)
      | some s =>
        match c.enumValues with
        | some allowed =>
          if allowed.contains s then .ok v else .error (.notListed c.field allowed)
        | none => .ok v
    | .json | .unknown => .ok v

namespace Schema

/-- One entry of a record, normalised or refused. -/
def checkEntry (s : Schema) (key : String) (v : Json) : Except Issue Json :=
  match s.column? key with
  | none => .error (.unknownColumn key)
  | some c => if c.primaryKey then .ok v else checkValue c v

/-- The entries of a record, one after another: the normalised entries and the issues. -/
def validateEntries (s : Schema) : Record → Record × List Issue
  | [] => ([], [])
  | (key, v) :: rest =>
    let (fields, issues) := validateEntries s rest
    match s.checkEntry key v with
    | .ok v => ((key, v) :: fields, issues)
    | .error issue => (fields, issue :: issues)

/-- Validates the fields present in a record. -/
def validateData (s : Schema) (data : Record) : Verdict :=
  match s.validateEntries data with
  | (fields, []) => .ok fields
  | (_, issues) => .error issues

theorem validateEntries_issues (s : Schema) (data : Record) :
    (s.validateEntries data).2 = data.filterMap fun entry =>
      match s.checkEntry entry.1 entry.2 with
      | .ok _ => none
      | .error issue => some issue := by
  induction data with
  | nil => rfl
  | cons entry rest ih =>
    obtain ⟨key, v⟩ := entry
    cases h : s.checkEntry key v <;> simp [validateEntries, h, ih]

/-- The columns that must be present on insert and are not. -/
def missing (s : Schema) (data : Record) : List Column :=
  s.columns.filter fun c =>
    c.required && c.default.isNone && !c.autoIncrement && !data.contains c.field

/-- Validates a record for insert: its fields, and that nothing required is missing. -/
def validateRequired (s : Schema) (data : Record) : Verdict :=
  match s.missing data with
  | [] => s.validateData data
  | missing =>
    let issues := missing.map fun c => Issue.required c.field
    match s.validateData data with
    | .ok _ => .error issues
    | .error more => .error (issues ++ more)

theorem validateRequired_of_noneMissing {s : Schema} {data : Record} (h : s.missing data = []) :
    s.validateRequired data = s.validateData data := by
  simp [validateRequired, h]

/-- Validates a single field. -/
def validateValue (s : Schema) (field : String) (v : Json) : Outcome Json :=
  match s.column? field with
  | none => .error (.validation (Issue.message (.unknownColumn field)))
  | some c => (checkValue c v).mapError fun issue => .validation issue.message

end Schema

end DataAccess
