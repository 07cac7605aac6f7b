import Mathlib.Data.List.Forall2
import DataAccess.Proofs.Json.Keyed
import DataAccess.Proofs.Schema.ReadBack
/-
**Validating records.**  Each entry of a record is accepted in a normal form or refused with one issue.  A
record with accepted entries only becomes its normal form, which is validated again as it is; any other is
refused with the issues of its entries, one after the other.  For an insert the missing columns come
before them.

Main definitions:

* `Verdict.message?` — the message of a verdict;
* `Schema.Accepts`, `Schema.Refuses` — what becomes of an entry;
* `Schema.Refusals` — the issues of a record, in its order.

Main results:

* `Schema.Refuses.names` — every issue of an entry names its field;
* `Schema.validateData_eq_ok_iff`, `Schema.validateData_again` — **the normal form of a record, which is
  its own normal form**;
* `Schema.validateData_eq_ok` — the keys and the values of a validated record;
* `Schema.validateData_eq_error_iff` — **the issues of a refused record**;
* `Schema.validateRequired_eq_ok_iff`, `Schema.outcome_validateRequired` — the same for an insert;
* `Schema.validation_complete` — **the verdict on every record, and on every insert**.
-/

set_option autoImplicit false

namespace DataAccess

/-! ### Issues -/

/-- The message of a verdict; a valid record has none. -/
def Verdict.message? : Verdict → Option String
  | .ok _ => none
  | .error issues => some (Issue.messages issues)

theorem Verdict.eq_ok_of_outcome {verdict : Verdict} {record : Record}
    (h : verdict.outcome = .ok record) : verdict = .ok record := by
  cases verdict with
  | ok fields => exact congrArg Except.ok (Except.ok.inj h)
  | error issues => exact absurd h (by simp [Verdict.outcome])

/-- A message in a list of messages may stand for the issues that it was made of. -/
theorem Text.join_append_join (separator : String) (before : List String) {items : List String}
    (filled : items ≠ []) :
    join separator (before ++ [join separator items]) = join separator (before ++ items) := by
  cases before with
  | nil => exact String.intercalate_singleton
  | cons first rest =>
      simp only [join]
      rw [String.intercalate_append_of_ne_nil (List.cons_ne_nil _ _) (List.cons_ne_nil _ _),
        String.intercalate_append_of_ne_nil (List.cons_ne_nil _ _) filled,
        String.intercalate_singleton]

namespace Schema

variable {s : Schema} {data record : Record}

/-! ### Entries -/

/-- An entry is accepted in a normal form: the value of a primary key as it is, and any other as the
check of its column normalises it. -/
inductive Accepts (s : Schema) (key : String) (v : Json) : Json → Prop
  | primaryKey {c : Column} (column : s.column? key = some c) (primary : c.primaryKey = true) :
      Accepts s key v v
  | value {c : Column} {n : Json} (column : s.column? key = some c) (other : c.primaryKey = false)
      (checked : checkValue c v = .ok n) : Accepts s key v n

/-- An entry is refused with an issue: it names no column, or the check of its column refuses the
value. -/
inductive Refuses (s : Schema) (key : String) (v : Json) : Issue → Prop
  | unknown (column : s.column? key = none) : Refuses s key v (.unknownColumn key)
  | value {c : Column} {issue : Issue} (column : s.column? key = some c)
      (other : c.primaryKey = false) (checked : checkValue c v = .error issue) :
      Refuses s key v issue

theorem accepts_iff {key : String} {v n : Json} :
    s.Accepts key v n ↔ s.checkEntry key v = .ok n := by
  constructor
  · rintro (⟨column, primary⟩ | ⟨column, other, checked⟩)
    · simp [checkEntry, column, primary]
    · simp [checkEntry, column, other, checked]
  · intro checked
    rw [checkEntry] at checked
    cases column : s.column? key with
    | none => simp [column] at checked
    | some c =>
        simp only [column] at checked
        split at checked
        · next primary =>
          rw [← Except.ok.inj checked]
          exact .primaryKey column primary
        · next other => exact .value column (Bool.eq_false_iff.2 other) checked

theorem refuses_iff {key : String} {v : Json} {issue : Issue} :
    s.Refuses key v issue ↔ s.checkEntry key v = .error issue := by
  constructor
  · rintro (column | ⟨column, other, checked⟩)
    · simp [checkEntry, column]
    · simp [checkEntry, column, other, checked]
  · intro checked
    rw [checkEntry] at checked
    cases column : s.column? key with
    | none =>
        simp only [column] at checked
        rw [← Except.error.inj checked]
        exact .unknown column
    | some c =>
        simp only [column] at checked
        split at checked
        · exact absurd checked (by simp)
        · next other => exact .value column (Bool.eq_false_iff.2 other) checked

/-- **Every issue names the field that it is about.** -/
theorem Refuses.names {key : String} {v : Json} {issue : Issue} (refused : s.Refuses key v issue) :
    issue.field = key := by
  cases refused with
  | unknown => rfl
  | value column _ checked =>
      rw [field_of_checkValue checked]
      simpa using List.find?_some column

/-- A normal form is accepted as it is. -/
theorem Accepts.again {key : String} {v n : Json} (accepted : s.Accepts key v n) :
    s.Accepts key n n := by
  cases accepted with
  | primaryKey column primary => exact .primaryKey column primary
  | value column other checked => exact .value column other (checkValue_of_accepted checked)

/-! ### Valid records -/

/-- A record is valid exactly if no entry raises an issue. -/
theorem validateData_eq_ok_iff_entries :
    s.validateData data = .ok record ↔ s.validateEntries data = (record, []) := by
  rw [validateData]
  rcases s.validateEntries data with ⟨fields, _ | ⟨issue, others⟩⟩
  · simp
  · simp

/-- A validated record is the data entry by entry, every value normalised. -/
theorem validateData_entries (h : s.validateData data = .ok record) :
    List.Forall₂ (fun before after => after.1 = before.1 ∧
      s.checkEntry before.1 before.2 = .ok after.2) data record := by
  have all := validateData_eq_ok_iff_entries.1 h
  clear h
  induction data generalizing record with
  | nil =>
      obtain ⟨rfl, -⟩ := Prod.mk.inj all
      exact .nil
  | cons entry rest ih =>
      obtain ⟨key, v⟩ := entry
      rw [validateEntries] at all
      rcases others : s.validateEntries rest with ⟨fields, issues⟩
      rw [others] at all
      cases checked : s.checkEntry key v with
      | error issue => simp [checked] at all
      | ok n =>
          simp only [checked, Prod.mk.injEq] at all
          obtain ⟨rfl, rfl⟩ := all
          exact .cons ⟨rfl, checked⟩ (ih others)

/-- **A valid record becomes its normal form, entry by entry.** -/
theorem validateData_eq_ok_iff : s.validateData data = .ok record ↔
    List.Forall₂ (fun before after => after.1 = before.1 ∧
      s.Accepts before.1 before.2 after.2) data record := by
  simp only [accepts_iff]
  constructor
  · exact validateData_entries
  · intro entries
    rw [validateData_eq_ok_iff_entries]
    induction entries with
    | nil => rfl
    | cons first _ ih =>
        obtain ⟨same, checked⟩ := first
        rw [validateEntries, ih]
        simp only [checked]
        rw [← same]

/-- **Validating is idempotent**: a normal form is valid, and its own normal form. -/
theorem validateData_again (h : s.validateData data = .ok record) :
    s.validateData record = .ok record := by
  rw [validateData_eq_ok_iff] at h ⊢
  induction h with
  | nil => exact .nil
  | cons first _ ih =>
      obtain ⟨same, accepted⟩ := first
      rw [← same] at accepted
      exact .cons ⟨rfl, accepted.again⟩ ih

/-- A validated record has the keys of the data, and every value was accepted. -/
theorem validateData_eq_ok (h : s.validateData data = .ok record) :
    Keyed.keys record = Keyed.keys data ∧
      ∀ entry ∈ record, ∃ v, (entry.1, v) ∈ data ∧ s.checkEntry entry.1 v = .ok entry.2 := by
  have entries := validateData_entries h
  clear h
  induction entries with
  | nil => exact ⟨rfl, fun entry member => absurd member List.not_mem_nil⟩
  | @cons before after data record first _ ih =>
      obtain ⟨same, checked⟩ := first
      obtain ⟨keys, accepted⟩ := ih
      refine ⟨by rw [Keyed.keys_cons, Keyed.keys_cons, keys, same], fun entry member => ?_⟩
      rcases List.mem_cons.1 member with rfl | member
      · rw [same]
        exact ⟨before.2, List.mem_cons_self, checked⟩
      · obtain ⟨v, there, passed⟩ := accepted entry member
        exact ⟨v, List.mem_cons_of_mem _ there, passed⟩

/-! ### Refused records -/

/-- The issues of the entries of a record, one for each that is refused. -/
inductive Refusals (s : Schema) : Record → List Issue → Prop
  | nil : Refusals s [] []
  | accepted {key : String} {v n : Json} {rest : Record} {issues : List Issue}
      (first : s.Accepts key v n) (others : Refusals s rest issues) :
      Refusals s ((key, v) :: rest) issues
  | refused {key : String} {v : Json} {rest : Record} {issue : Issue} {issues : List Issue}
      (first : s.Refuses key v issue) (others : Refusals s rest issues) :
      Refusals s ((key, v) :: rest) (issue :: issues)

theorem refusals_iff {issues : List Issue} :
    s.Refusals data issues ↔ (s.validateEntries data).2 = issues := by
  constructor
  · intro refusals
    induction refusals with
    | nil => rfl
    | accepted first _ ih => simpa [validateEntries, accepts_iff.1 first] using ih
    | refused first _ ih => simpa [validateEntries, refuses_iff.1 first] using ih
  · rintro rfl
    induction data with
    | nil => exact .nil
    | cons entry rest ih =>
        obtain ⟨key, v⟩ := entry
        rw [validateEntries]
        cases checked : s.checkEntry key v with
        | ok n => exact .accepted (accepts_iff.2 checked) ih
        | error issue => exact .refused (refuses_iff.2 checked) ih

theorem refusals_nil_iff :
    s.Refusals data [] ↔ ∀ entry ∈ data, ∃ n, s.Accepts entry.1 entry.2 n := by
  constructor
  · intro refusals
    induction data with
    | nil => exact fun entry member => absurd member List.not_mem_nil
    | cons first rest ih =>
        intro entry member
        cases refusals with
        | accepted accepted others =>
            rcases List.mem_cons.1 member with rfl | member
            · exact ⟨_, accepted⟩
            · exact ih others entry member
  · intro all
    induction data with
    | nil => exact .nil
    | cons first rest ih =>
        obtain ⟨n, accepted⟩ := all first List.mem_cons_self
        exact .accepted accepted (ih fun entry member => all entry (List.mem_cons_of_mem _ member))

/-- **A record is refused with the issues of its entries, if there are any.** -/
theorem validateData_eq_error_iff {issues : List Issue} :
    s.validateData data = .error issues ↔ s.Refusals data issues ∧ issues ≠ [] := by
  rw [refusals_iff, validateData]
  rcases s.validateEntries data with ⟨fields, _ | ⟨issue, others⟩⟩
  · simp
  · rw [Except.error.injEq]
    constructor
    · rintro rfl
      exact ⟨rfl, List.cons_ne_nil _ _⟩
    · exact And.left

/-- **A record is valid if all of its entries are accepted.** -/
theorem exists_validateData_iff : (∃ record, s.validateData data = .ok record) ↔
    ∀ entry ∈ data, ∃ n, s.Accepts entry.1 entry.2 n := by
  rw [← refusals_nil_iff, refusals_iff]
  simp only [validateData_eq_ok_iff_entries]
  constructor
  · rintro ⟨record, entries⟩
    rw [entries]
  · exact fun none => ⟨_, Prod.ext rfl none⟩

/-! ### Inserts -/

/-- **An insert is valid if its fields are and no column is missing.** -/
theorem validateRequired_eq_ok_iff : s.validateRequired data = .ok record ↔
    s.missing data = [] ∧ s.validateData data = .ok record := by
  rw [validateRequired]
  cases s.missing data with
  | nil => simp
  | cons c rest => cases s.validateData data <;> simp

theorem validateRequired_eq_ok (h : s.validateRequired data = .ok record) :
    s.validateData data = .ok record :=
  (validateRequired_eq_ok_iff.1 h).2

theorem missing_eq_nil_iff : s.missing data = [] ↔ ∀ c ∈ s.columns, c.required = true →
    c.default = none → c.autoIncrement = false → c.field ∈ Keyed.keys data := by
  simp [missing, List.filter_eq_nil_iff, Bool.not_eq_false]

/-- **The message of a refused insert**: every missing column, and then what is wrong with its fields. -/
theorem outcome_validateRequired (refused : ∀ record, s.validateRequired data ≠ .ok record) :
    (s.validateRequired data).outcome = .error (.validation (Text.join ", "
      ((s.missing data).map (fun c => s!"{c.field} is required") ++
        (s.validateData data).message?.toList))) := by
  have required : (s.missing data).map (fun c => s!"{c.field} is required") =
      ((s.missing data).map fun c => Issue.required c.field).map Issue.message := by
    rw [List.map_map]
    rfl
  rw [required]
  have listed {issues : List Issue} (h : s.validateData data = .error issues) :
      issues.map Issue.message ≠ [] := fun none =>
    (validateData_eq_error_iff.1 h).2 (List.map_eq_nil_iff.1 none)
  cases absent : s.missing data with
  | nil =>
      rw [validateRequired_of_noneMissing absent] at refused ⊢
      cases checked : s.validateData data with
      | ok record => exact absurd checked (refused record)
      | error issues =>
          have message := Text.join_append_join ", " [] (listed checked)
          exact congrArg (fun m => Except.error (DataError.validation m)) message.symm
  | cons c rest =>
      rw [validateRequired, absent]
      cases checked : s.validateData data with
      | ok record =>
          simp [Verdict.outcome, Verdict.message?, Issue.messages]
      | error issues =>
          have message := Text.join_append_join ", "
            (((c :: rest).map fun c => Issue.required c.field).map Issue.message) (listed checked)
          simp only [Verdict.outcome, Verdict.message?, Option.toList_some, Issue.messages]
          rw [message, List.map_append]

/-! ### The verdict as a whole -/

theorem exists_accepts_iff {key : String} {v : Json} : (∃ n, s.Accepts key v n) ↔
    ∃ c, s.column? key = some c ∧ (c.primaryKey = false → ∃ n, checkValue c v = .ok n) := by
  constructor
  · rintro ⟨n, ⟨column, primary⟩ | ⟨column, other, checked⟩⟩
    · exact ⟨_, column, fun other => absurd (primary.symm.trans other) (by simp)⟩
    · exact ⟨_, column, fun _ => ⟨n, checked⟩⟩
  · rintro ⟨c, column, passes⟩
    cases primary : c.primaryKey with
    | true => exact ⟨v, .primaryKey column primary⟩
    | false =>
        obtain ⟨n, checked⟩ := passes primary
        exact ⟨n, .value column primary checked⟩

/-- **Validation is complete, keeps the order and is idempotent.**  A record is valid exactly if its keys
name columns and its values pass the check of their columns, those of a primary key aside; it becomes
its normal form entry by entry, and that is validated again as it is.  A refused record is reported with
the issues of its entries.  An insert is valid exactly if in addition no required column is missing; it
becomes the same normal form, and a refused one is reported with the missing columns first. -/
theorem validation_complete (s : Schema) (data : Record) :
    ((∃ record, s.validateData data = .ok record) ↔
      ∀ entry ∈ data, ∃ c, s.column? entry.1 = some c ∧
        (c.primaryKey = false → ∃ n, checkValue c entry.2 = .ok n)) ∧
    (∀ record, s.validateData data = .ok record →
      List.Forall₂ (fun before after => after.1 = before.1 ∧
        s.Accepts before.1 before.2 after.2) data record ∧
      s.validateData record = .ok record) ∧
    ((∀ record, s.validateData data ≠ .ok record) →
      ∃ issues, s.Refusals data issues ∧ issues ≠ [] ∧
        (s.validateData data).outcome =
          .error (.validation (Text.join ", " (issues.map Issue.message)))) ∧
    ((∃ record, s.validateRequired data = .ok record) ↔
      (∃ record, s.validateData data = .ok record) ∧ ∀ c ∈ s.columns, c.required = true →
        c.default = none → c.autoIncrement = false → c.field ∈ Keyed.keys data) ∧
    (∀ record, s.validateRequired data = .ok record → s.validateData data = .ok record) ∧
    ((∀ record, s.validateRequired data ≠ .ok record) →
      (s.validateRequired data).outcome = .error (.validation (Text.join ", "
        ((s.missing data).map (fun c => s!"{c.field} is required") ++
          (s.validateData data).message?.toList)))) := by
  refine ⟨?valid, fun record valid => ⟨validateData_eq_ok_iff.1 valid, validateData_again valid⟩,
    ?refused, ?insert, fun record => validateRequired_eq_ok, outcome_validateRequired⟩
  case valid =>
    rw [exists_validateData_iff]
    exact forall₂_congr fun entry _ => exists_accepts_iff
  case refused =>
    intro refused
    cases checked : s.validateData data with
    | ok record => exact absurd checked (refused record)
    | error issues =>
        obtain ⟨refusals, some⟩ := validateData_eq_error_iff.1 checked
        exact ⟨issues, refusals, some, rfl⟩
  case insert =>
    constructor
    · rintro ⟨record, accepted⟩
      obtain ⟨present, valid⟩ := validateRequired_eq_ok_iff.1 accepted
      exact ⟨⟨record, valid⟩, missing_eq_nil_iff.1 present⟩
    · rintro ⟨⟨record, valid⟩, present⟩
      exact ⟨record, validateRequired_eq_ok_iff.2 ⟨missing_eq_nil_iff.2 present, valid⟩⟩

/-- A table with a generated key, a required name and an age. -/
def roster : Schema :=
  .ofColumns "roster" [.serverKey "id", { Column.plain "name" .string with required := true },
    .plain "age" .number] []

/-- Without the name, with a blank for the age and with a field that the table lacks, three things are
wrong with an insert. -/
theorem validation_complete_roster :
    (∀ record, roster.validateRequired [("age", .string " "), ("zip", .null)] ≠ .ok record) ∧
    (roster.validateRequired [("age", .string " "), ("zip", .null)]).outcome =
      .error (.validation "name is required, age must be a number, Unknown column: zip") := by
  have refused : ∀ record,
      roster.validateRequired [("age", .string " "), ("zip", .null)] ≠ .ok record := fun _ h => by
    cases h
  obtain ⟨-, -, -, -, -, message⟩ := validation_complete roster [("age", .string " "), ("zip", .null)]
  exact ⟨refused, message refused⟩

end Schema

end DataAccess
