import DataAccess.Schema.Validation
import DataAccess.Proofs.Calendar.NativeForm
/-
**Reading back what was validated.**  A value that a column accepts is normalised, written in the
form of the backend, and read again when the row is shaped.  Reading cannot fail: apart from dates it
gives the normalised value back, and a date comes back as its instant in whole seconds.

Main definitions:

* `Issue.field` — the field that an issue is about;
* `Judged` — how the check of a column ends.

Main results:

* `judged_checkValue` — what becomes of a value;
* `coerceNumber_of_coerceNumber` — the numeric cast of a number is the number;
* `coerceRead_coerceWrite` — **an accepted value is read back as it was normalised**;
* `coerceRead_coerceWrite_date` — an accepted date is read back as its instant;
* `exists_coerceRead` — in every case reading back succeeds;
* `isNull_coerceWrite` — only null is written as null;
* `coerceWrite_of_accepted` — an accepted value is written as its normalised form is;
* `coerceWrite_coerceWrite` — what was written is written again as it is;
* `coercions_inverse` — **writing is idempotent, and reading undoes it**;
* `checkValue_of_accepted` — a normalised value is accepted as it is.
-/

set_option autoImplicit false

namespace DataAccess

/-- The numeric cast gives numbers. -/
theorem number_of_coerceNumber {v n : Json} (h : coerceNumber v = some n) : ∃ m, n = .number m := by
  cases v with
  | number m => exact ⟨m, (Option.some.inj h).symm⟩
  | bool b => exact ⟨_, (Option.some.inj h).symm⟩
  | string s =>
      simp only [coerceNumber] at h
      split at h
      · exact ⟨_, (Option.some.inj h).symm⟩
      · obtain ⟨x, -, hx⟩ := Option.map_eq_some_iff.1 h
        exact ⟨_, hx.symm⟩
  | null => simp [coerceNumber] at h
  | array items => simp [coerceNumber] at h
  | object entries => simp [coerceNumber] at h

/-- The numeric cast of a number is the number. -/
theorem coerceNumber_of_coerceNumber {v n : Json} (h : coerceNumber v = some n) :
    n.isNull = false ∧ coerceNumber n = some n := by
  obtain ⟨m, rfl⟩ := number_of_coerceNumber h
  exact ⟨rfl, rfl⟩

/-- The stored form of a boolean is read as the boolean. -/
theorem coerceBoolean_encode (storage : BooleanStorage) (b : Bool) :
    (storage.encode b).isNull = false ∧ coerceBoolean (storage.encode b) = some b := by
  cases storage <;> cases b <;> exact ⟨rfl, rfl⟩

/-! ### What is written -/

section Written

variable {v : Json} (storage : BooleanStorage)

theorem coerceWrite_number {n : Json} (cast : coerceNumber v = some n) :
    coerceWrite .number v storage = n := by
  have present : v.isNull = false := by
    cases v <;> first | rfl | exact absurd cast (by simp [coerceNumber])
  simp [coerceWrite, present, cast]

theorem coerceWrite_boolean {b : Bool} (read : coerceBoolean v = some b) :
    coerceWrite .boolean v storage = storage.encode b := by
  have present : v.isNull = false := by
    cases v <;> first | rfl | exact absurd read (by simp [coerceBoolean])
  simp [coerceWrite, present, read]

theorem coerceWrite_date {t : Timestamp} (read : parseTimestamp v = some t) :
    coerceWrite .date v storage = .string t.native := by
  have present : v.isNull = false := by
    cases v <;> first | rfl | exact absurd read (by simp [parseTimestamp])
  simp [coerceWrite, present, read]

end Written

/-! ### What becomes of a value

Every later fact about checked values is a case for each way in which the check of a column ends. -/

/-- The field that an issue is about. -/
def Issue.field : Issue → String
  | .unknownColumn field | .required field | .nullNotAllowed field | .notNumber field
  | .notString field | .notBoolean field | .notDate field | .notListed field _ => field

/-- How the check of a column ends: a number and a boolean are normalised, any other value is accepted
as it is, and a value that is refused is refused for the column. -/
inductive Judged (c : Column) (v : Json) : Except Issue Json → Prop
  | null (absent : v = .null) (optional : (c.nullable || !c.required) = true) :
      Judged c v (.ok .null)
  | number {n : Json} (type : c.type = .number) (cast : coerceNumber v = some n) :
      Judged c v (.ok n)
  | boolean {b : Bool} (type : c.type = .boolean) (read : strictBoolean v = some b) :
      Judged c v (.ok (.bool b))
  | date {t : Timestamp} (type : c.type = .date) (read : parseTimestamp v = some t) :
      Judged c v (.ok v)
  | untyped (number : c.type ≠ .number) (boolean : c.type ≠ .boolean) (date : c.type ≠ .date) :
      Judged c v (.ok v)
  | refused {issue : Issue} (names : issue.field = c.field) : Judged c v (.error issue)

/-- The check of a column ends in one of these ways. -/
theorem judged_checkValue (c : Column) (v : Json) : Judged c v (checkValue c v) := by
  unfold checkValue
  split
  · next absent =>
    split
    · next optional => exact .null (Json.isNull_iff.1 absent) optional
    · exact .refused rfl
  · cases type : c.type with
    | number =>
        have judged : Judged c v ((coerceNumber v).elim (.error (.notNumber c.field)) .ok) := by
          cases cast : coerceNumber v with
          | none => exact .refused rfl
          | some n => exact .number type cast
        simp only
        split
        · split
          · exact .refused rfl
          · exact judged
        · exact judged
    | boolean =>
        simp only
        cases read : strictBoolean v with
        | none => exact .refused rfl
        | some b => exact .boolean type read
    | date =>
        simp only
        split
        · next read =>
          rw [Bool.and_eq_true] at read
          obtain ⟨t, denoted⟩ := Option.isSome_iff_exists.1 read.2
          exact .date type denoted
        · exact .refused rfl
    | string =>
        simp only
        split
        · exact .untyped (by simp [type]) (by simp [type]) (by simp [type])
        · exact .refused rfl
    | enum =>
        simp only
        split
        · exact .refused rfl
        · split
          · split
            · exact .untyped (by simp [type]) (by simp [type]) (by simp [type])
            · exact .refused rfl
          · exact .untyped (by simp [type]) (by simp [type]) (by simp [type])
    | json | unknown => exact .untyped (by simp [type]) (by simp [type]) (by simp [type])

theorem judged_of_accepted {c : Column} {v n : Json} (accepted : checkValue c v = .ok n) :
    Judged c v (.ok n) := by
  rw [← accepted]
  exact judged_checkValue c v

/-- A refused value is refused for its column. -/
theorem field_of_checkValue {c : Column} {v : Json} {issue : Issue}
    (refused : checkValue c v = .error issue) : issue.field = c.field := by
  have judged := judged_checkValue c v
  rw [refused] at judged
  cases judged with
  | refused names => exact names

/-- Only numbers and booleans are normalised. -/
theorem eq_of_accepted {c : Column} {v n : Json} (accepted : checkValue c v = .ok n)
    (number : c.type ≠ .number) (boolean : c.type ≠ .boolean) : n = v := by
  cases judged_of_accepted accepted with
  | null absent => exact absent.symm
  | number type => exact absurd type number
  | boolean type => exact absurd type boolean
  | date | untyped => rfl

/-! ### What is read back -/

theorem coerceRead_eq_of_number {n : Json} (present : n.isNull = false)
    (number : coerceNumber n = some n) (storage : BooleanStorage) :
    coerceRead .number (coerceWrite .number n storage) = .ok n := by
  rw [coerceWrite_number storage number]
  simp [coerceRead, present, number]

theorem coerceRead_eq_of_boolean (b : Bool) (storage : BooleanStorage) :
    coerceRead .boolean (coerceWrite .boolean (.bool b) storage) = .ok (.bool b) := by
  have written : coerceWrite .boolean (.bool b) storage = storage.encode b := rfl
  obtain ⟨present, read⟩ := coerceBoolean_encode storage b
  rw [written]
  simp [coerceRead, present, read]

/-- Types without a form of their own are written and read as given. -/
theorem coerceRead_eq_of_untyped {type : ColumnType} (number : type ≠ .number)
    (boolean : type ≠ .boolean) (date : type ≠ .date) (v : Json) (storage : BooleanStorage) :
    coerceRead type (coerceWrite type v storage) = .ok v := by
  rw [coerceWrite_untyped number boolean date]
  unfold coerceRead
  split
  · rfl
  · split <;> first | contradiction | rfl

theorem checkValue_null (c : Column) : checkValue c .null =
    if c.nullable || !c.required then .ok .null else .error (.nullNotAllowed c.field) := rfl

/-- **An accepted value that is no date is read back as it was normalised.** -/
theorem coerceRead_coerceWrite {c : Column} {v n : Json} (accepted : checkValue c v = .ok n)
    (notDate : c.type ≠ .date) (storage : BooleanStorage) :
    coerceRead c.type (coerceWrite c.type n storage) = .ok n := by
  cases judged_of_accepted accepted with
  | null => rw [coerceWrite_null, coerceRead_null]
  | number type cast =>
      obtain ⟨present, same⟩ := coerceNumber_of_coerceNumber cast
      rw [type]
      exact coerceRead_eq_of_number present same storage
  | boolean type =>
      rw [type]
      exact coerceRead_eq_of_boolean _ storage
  | date type => exact absurd type notDate
  | untyped number boolean date => exact coerceRead_eq_of_untyped number boolean date v storage

/-- An accepted date is null, or it is read back as its instant in whole seconds. -/
theorem coerceRead_coerceWrite_date {c : Column} {v n : Json} (accepted : checkValue c v = .ok n)
    (date : c.type = .date) (storage : BooleanStorage) :
    n = .null ∨ ∃ t, parseTimestamp n = some t ∧
      coerceRead .date (coerceWrite .date n storage) = .ok (.string t.wholeSeconds.iso) := by
  cases judged_of_accepted accepted with
  | null => exact .inl rfl
  | number type | boolean type => exact absurd (type.symm.trans date) (by decide)
  | @date t _ read =>
      refine .inr ⟨t, read, ?_⟩
      rw [coerceWrite_date storage read]
      simp [coerceRead, Json.isNull, parseTimestamp_native read]
  | untyped _ _ other => exact absurd date other

/-- Reading fails only on a value that cannot be read. -/
theorem coerceRead_error {type : ColumnType} {v : Json} {e : DataError}
    (h : coerceRead type v = .error e) : ∃ noun, e = unreadable v noun := by
  unfold coerceRead at h
  split at h
  · exact absurd h (by simp)
  · split at h
    · split at h
      · exact absurd h (by simp)
      · exact ⟨_, (Except.error.inj h).symm⟩
    · split at h
      · exact absurd h (by simp)
      · exact ⟨_, (Except.error.inj h).symm⟩
    · split at h
      · exact absurd h (by simp)
      · exact ⟨_, (Except.error.inj h).symm⟩
    · exact absurd h (by simp)

/-- Reading back an accepted value succeeds. -/
theorem exists_coerceRead {c : Column} {v n : Json} (accepted : checkValue c v = .ok n)
    (storage : BooleanStorage) :
    ∃ r, coerceRead c.type (coerceWrite c.type n storage) = .ok r := by
  by_cases date : c.type = .date
  · rcases coerceRead_coerceWrite_date accepted date storage with rfl | ⟨t, -, read⟩
    · exact ⟨.null, by rw [coerceWrite_null, coerceRead_null]⟩
    · rw [date]
      exact ⟨_, read⟩
  · exact ⟨n, coerceRead_coerceWrite accepted date storage⟩

/-! ### Writing what was not normalised -/

/-- Nothing but null is written as null. -/
theorem isNull_coerceWrite (type : ColumnType) (v : Json) (booleans : BooleanStorage) :
    (coerceWrite type v booleans).isNull = v.isNull := by
  unfold coerceWrite
  split
  · rfl
  · next filled =>
    rw [Bool.eq_false_iff.2 filled]
    split
    · cases coerceBoolean v with
      | none => exact Bool.eq_false_iff.2 filled
      | some b => exact (coerceBoolean_encode booleans b).1
    · cases parseTimestamp v with
      | none => exact Bool.eq_false_iff.2 filled
      | some t => rfl
    · cases cast : coerceNumber v with
      | none => exact Bool.eq_false_iff.2 filled
      | some n => exact (coerceNumber_of_coerceNumber cast).1
    · exact Bool.eq_false_iff.2 filled

/-- The booleans that callers may write are read as what they mean. -/
theorem coerceBoolean_of_strict {v : Json} {b : Bool} (h : strictBoolean v = some b) :
    coerceBoolean v = some b := by
  cases v with
  | bool a => exact h
  | string s =>
      have listed : (s, b) ∈ [("true", true), ("1", true), ("false", false), ("0", false)] := by
        obtain ⟨before, after, eq, -⟩ := List.lookup_eq_some_iff.1 h
        simp [eq]
      simp only [List.mem_cons, Prod.mk.injEq, List.not_mem_nil, or_false] at listed
      rcases listed with ⟨rfl, rfl⟩ | ⟨rfl, rfl⟩ | ⟨rfl, rfl⟩ | ⟨rfl, rfl⟩ <;> rfl
  | number n =>
      cases n with
      | float x => simp [strictBoolean, Number.asSigned?] at h
      | integer i inRange =>
          have bit : (i = 1 ∧ b = true) ∨ (i = 0 ∧ b = false) := by
            simp only [strictBoolean, Number.asSigned?] at h
            split at h <;> simp_all
          rcases bit with ⟨rfl, rfl⟩ | ⟨rfl, rfl⟩ <;> rfl
  | null => simp [strictBoolean] at h
  | array items => simp [strictBoolean] at h
  | object entries => simp [strictBoolean] at h

/-- **An accepted value is written as its normalised form is.** -/
theorem coerceWrite_of_accepted {c : Column} {v n : Json} (accepted : checkValue c v = .ok n)
    (storage : BooleanStorage) : coerceWrite c.type n storage = coerceWrite c.type v storage := by
  cases judged_of_accepted accepted with
  | null absent => rw [absent]
  | number type cast =>
      have same := (coerceNumber_of_coerceNumber cast).2
      rw [type, coerceWrite_number storage cast, coerceWrite_number storage same]
  | @boolean b type read =>
      have same : coerceBoolean (.bool b) = some b := rfl
      rw [type, coerceWrite_boolean storage (coerceBoolean_of_strict read),
        coerceWrite_boolean storage same]
  | date | untyped => rfl

/-- **What was written is written again as it is.** -/
theorem coerceWrite_coerceWrite (type : ColumnType) (v : Json) (storage : BooleanStorage) :
    coerceWrite type (coerceWrite type v storage) storage = coerceWrite type v storage := by
  -- a value that cannot be read stays as it is
  have kept (same : coerceWrite type v storage = v) :
      coerceWrite type (coerceWrite type v storage) storage = coerceWrite type v storage := by
    rw [same, same]
  cases type with
  | number =>
      cases cast : coerceNumber v with
      | none => exact kept (by simp [coerceWrite, cast])
      | some n =>
          have again := (coerceNumber_of_coerceNumber cast).2
          rw [coerceWrite_number storage cast, coerceWrite_number storage again]
  | boolean =>
      cases read : coerceBoolean v with
      | none => exact kept (by simp [coerceWrite, read])
      | some b =>
          have again := (coerceBoolean_encode storage b).2
          rw [coerceWrite_boolean storage read, coerceWrite_boolean storage again]
  | date =>
      cases read : parseTimestamp v with
      | none => exact kept (by simp [coerceWrite, read])
      | some t =>
          have again := parseTimestamp_native read
          rw [coerceWrite_date storage read, coerceWrite_date storage again, t.native_wholeSeconds]
  | string | json | enum | unknown =>
      exact kept (coerceWrite_untyped (by decide) (by decide) (by decide) v storage)

/-- **Writing is idempotent, and reading undoes it.**  Every accepted value is read back as it was
normalised, except that a date that is not null is read back as its instant without the fraction of a
second, in whatever notation it was given. -/
theorem coercions_inverse (storage : BooleanStorage) :
    (∀ type v, coerceWrite type (coerceWrite type v storage) storage = coerceWrite type v storage) ∧
      ∀ (c : Column) (v n : Json), checkValue c v = .ok n →
        (c.type ≠ .date ∨ v = .null →
          coerceRead c.type (coerceWrite c.type n storage) = .ok n) ∧
        (c.type = .date → v ≠ .null → ∃ t, parseTimestamp v = some t ∧
          coerceRead c.type (coerceWrite c.type n storage) = .ok (.string t.wholeSeconds.iso)) := by
  refine ⟨fun type v => coerceWrite_coerceWrite type v storage, ?_⟩
  intro c v n accepted
  constructor
  · rintro (notDate | rfl)
    · exact coerceRead_coerceWrite accepted notDate storage
    · rw [checkValue_null] at accepted
      split at accepted
      · rw [← Except.ok.inj accepted, coerceWrite_null, coerceRead_null]
      · exact absurd accepted (by simp)
  · intro date present
    obtain rfl : n = v := eq_of_accepted accepted (by simp [date]) (by simp [date])
    rw [date]
    exact (coerceRead_coerceWrite_date accepted date storage).resolve_left present

/-- The last leap second before the year 10000, some hours behind UTC: it is read back in the year
+10000, still a leap second and without its fraction. -/
theorem coercions_inverse_lastSecond :
    checkValue (.plain "day" .date) (.string "9999-12-31T23:59:60.5-03:30") =
        .ok (.string "9999-12-31T23:59:60.5-03:30") ∧
      coerceRead .date (coerceWrite .date (.string "9999-12-31T23:59:60.5-03:30") .integer) =
        .ok (.string "+10000-01-01T03:29:60.000Z") := by
  have denoted : parseTimestamp (.string "9999-12-31T23:59:60.5-03:30") =
      some ⟨253402313399, 1500000000⟩ := by
    decide +kernel
  have accepted : checkValue (.plain "day" .date) (.string "9999-12-31T23:59:60.5-03:30") =
      .ok (.string "9999-12-31T23:59:60.5-03:30") := by
    simp [checkValue, Column.plain, Json.isNull, Json.asString?, denoted]
  obtain ⟨t, read, back⟩ := ((coercions_inverse .integer).2 _ _ _ accepted).2 rfl (by simp)
  obtain rfl := Option.some.inj (denoted.symm.trans read)
  have shown : Timestamp.iso (Timestamp.wholeSeconds ⟨253402313399, 1500000000⟩) =
      "+10000-01-01T03:29:60.000Z" := by
    decide +kernel
  rw [shown] at back
  exact ⟨accepted, back⟩

/-! ### Checking what was normalised -/

/-- **A normalised value is accepted as it is.** -/
theorem checkValue_of_accepted {c : Column} {v n : Json} (accepted : checkValue c v = .ok n) :
    checkValue c n = .ok n := by
  cases judged_of_accepted accepted with
  | null absent => rwa [absent] at accepted
  | number type cast =>
      obtain ⟨m, rfl⟩ := number_of_coerceNumber cast
      simp [checkValue, Json.isNull, type, coerceNumber]
  | boolean type => simp [checkValue, Json.isNull, type, strictBoolean]
  | date | untyped => exact accepted

end DataAccess
