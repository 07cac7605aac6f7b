import DataAccess.Proofs.Document.Constraints
import DataAccess.Proofs.Engine.Writes
/-
**Fields that must be there.**  Whether a record has what it must have is decided twice.  Before a
record is stored it is validated: a column may be left out if it has a default or counts up by itself,
and it may be null if it is nullable.  The collection then has a rule of its own, made when it was
created: a required field without a default must be there and must not be null, unless the server
generates it.  The two are not the same, so the collection may refuse a record that was accepted.

Main definitions:

* `Schema.Generates` — a field whose value the server generates;
* `Schema.Demands` — a field that no accepted record leaves out or holds null in.

Main results:

* `Schema.accepted_holds_iff` — **accepted records hold a field exactly if it is demanded**;
* `Setting.createOne_refused_iff` — which records a collection refuses for a missing field;
* `Setting.stores_accepted_iff` — **a new collection stores all accepted records exactly if each field
  that it requires is demanded**.
-/

set_option autoImplicit false

namespace DataAccess

namespace Schema

variable {s : Schema} {field : String}

/-! ### Fields that accepted records hold -/

/-- A field whose value the server generates. -/
def Generates (s : Schema) (field : String) : Prop :=
  ∃ c ∈ s.columns, c.isServerGenerated = true ∧ c.field = field

/-- A field that no accepted record leaves out, as a column of it is required, has no default and does
not count up, and in which none holds null, as validation reads it by a column that is not null. -/
structure Demands (s : Schema) (field : String) : Prop where
  present : ∃ c ∈ s.columns, c.field = field ∧ c.required = true ∧ c.default = none ∧
    c.autoIncrement = false
  filled : ∀ c, s.column? field = some c →
    c.primaryKey = false ∧ c.required = true ∧ c.nullable = false

/-- Null is accepted for key columns and wherever it is allowed. -/
theorem checkEntry_null {n : Json} : s.checkEntry field .null = .ok n ↔ n = .null ∧
    ∃ c, s.column? field = some c ∧ (c.primaryKey = true ∨ c.required = false ∨ c.nullable = true) := by
  rw [checkEntry]
  cases s.column? field with
  | none => simp
  | some c =>
      simp only [checkValue_null, Option.some.injEq, exists_eq_left']
      cases c.primaryKey <;> cases c.required <;> cases c.nullable <;> simp [eq_comm]

/-- A value that is not null is not normalised to null. -/
theorem isNull_of_checkEntry {v n : Json} (accepted : s.checkEntry field v = .ok n) :
    n.isNull = v.isNull := by
  have same := congrArg Json.isNull (storedForm_of_accepted accepted)
  rw [storedForm, storedForm] at same
  cases column : s.column? field with
  | none => simpa only [column] using same
  | some c => simpa only [column, isNull_coerceWrite] using same

/-- Data are accepted exactly if nothing is missing and every entry is accepted. -/
theorem exists_validateRequired {data : Record} : (∃ record, s.validateRequired data = .ok record) ↔
    s.missing data = [] ∧ ∀ entry ∈ data, ∃ n, s.checkEntry entry.1 entry.2 = .ok n := by
  simp only [validateRequired_eq_ok_iff, exists_and_left, exists_validateData_iff, accepts_iff]

/-- What a demanded field holds in an accepted record. -/
theorem Demands.held {data record : Record} (demands : s.Demands field)
    (accepted : s.validateRequired data = .ok record) : record.held? field ≠ none := by
  obtain ⟨keys, each⟩ := validateData_eq_ok (validateRequired_eq_ok accepted)
  obtain ⟨c, member, rfl, required, bare, fixed⟩ := demands.present
  have there : c.field ∈ Keyed.keys record := by
    rw [keys]
    exact missing_eq_nil_iff.1 (exists_validateRequired.1 ⟨record, accepted⟩).1 c member required bare fixed
  obtain ⟨x, found⟩ : ∃ x, Keyed.get? record c.field = some x := by
    rw [← Option.ne_none_iff_exists', Ne, Keyed.get?_eq_none_iff]
    exact not_not.2 there
  obtain ⟨v, -, passed⟩ := each (c.field, x) (Keyed.mem_of_get? found)
  have filled : x.isNull = false := by
    by_contra null
    rw [Bool.not_eq_false] at null
    -- null comes from null, which is not accepted here
    obtain rfl : v = .null := by
      rw [← Json.isNull_iff, ← isNull_of_checkEntry passed, null]
    obtain ⟨-, k, column, allowed⟩ := checkEntry_null.1 passed
    obtain ⟨key, required', nullable⟩ := demands.filled k column
    rcases allowed with h | h | h
    · exact absurd (h.symm.trans key) (by simp)
    · exact absurd (h.symm.trans required') (by simp)
    · exact absurd (h.symm.trans nullable) (by simp)
  rw [Record.held?_eq_some_iff.2 ⟨found, filled⟩]
  simp

/-- Accepted data are accepted without a field that need not be there. -/
theorem accepts_erase {data : Record} (accepted : ∃ record, s.validateRequired data = .ok record)
    (free : ¬ ∃ c ∈ s.columns, c.field = field ∧ c.required = true ∧ c.default = none ∧
      c.autoIncrement = false) : ∃ record, s.validateRequired (data.erase field) = .ok record := by
  obtain ⟨complete, each⟩ := exists_validateRequired.1 accepted
  refine exists_validateRequired.2 ⟨missing_eq_nil_iff.2 ?_, ?_⟩
  · intro c member required bare fixed
    have other : c.field ≠ field := fun same => free ⟨c, member, same, required, bare, fixed⟩
    have there := missing_eq_nil_iff.1 complete c member required bare fixed
    obtain ⟨entry, before, same⟩ := List.mem_map.1 there
    refine List.mem_map.2 ⟨entry, List.mem_filter.2 ⟨before, ?_⟩, same⟩
    rw [same]
    exact decide_eq_true other
  · intro entry member
    exact each entry (List.mem_filter.1 member).1

/-- Accepted data are accepted with null in a field where null is accepted. -/
theorem accepts_null {data : Record} (accepted : ∃ record, s.validateRequired data = .ok record)
    (free : s.checkEntry field .null = .ok .null) :
    ∃ record, s.validateRequired (data.insert field .null) = .ok record := by
  obtain ⟨complete, each⟩ := exists_validateRequired.1 accepted
  refine exists_validateRequired.2 ⟨missing_eq_nil_iff.2 ?_, ?_⟩
  · intro c member required bare fixed
    have there := missing_eq_nil_iff.1 complete c member required bare fixed
    rw [Keyed.keys_insert]
    split
    · exact there
    · exact List.mem_append_left _ there
  · intro entry member
    rcases Keyed.mem_of_mem_insert member with before | rfl
    · exact each entry before
    · exact ⟨.null, free⟩

/-- **Accepted records hold a field exactly if it is demanded**, as long as some record is accepted. -/
theorem accepted_holds_iff (some_accepted : ∃ data record : Record, (Keyed.keys data).Nodup ∧
      s.validateRequired data = .ok record) :
    (∀ data record : Record, (Keyed.keys data).Nodup → s.validateRequired data = .ok record →
      record.held? field ≠ none) ↔ s.Demands field := by
  refine ⟨fun holds => ?_, fun demands data record _ accepted => demands.held accepted⟩
  obtain ⟨data, record, distinct, accepted⟩ := some_accepted
  constructor
  · by_contra free
    obtain ⟨less, accepted'⟩ := accepts_erase ⟨record, accepted⟩ free
    refine holds _ less (Keyed.nodup_keys_erase distinct field) accepted' ?_
    have absent : Keyed.get? less field = none := by
      rw [Keyed.get?_eq_none_iff, (validateData_eq_ok (validateRequired_eq_ok accepted')).1,
        ← Keyed.get?_eq_none_iff, Keyed.get?_erase, if_pos rfl]
    rw [Record.held?, absent]
  · intro c column
    by_contra free
    have allowed : s.checkEntry field .null = .ok .null := by
      refine checkEntry_null.2 ⟨rfl, c, column, ?_⟩
      simp only [not_and_or, Bool.not_eq_false, Bool.not_eq_true] at free
      exact free
    obtain ⟨nulled, accepted'⟩ := accepts_null ⟨record, accepted⟩ allowed
    have distinct' := Keyed.nodup_keys_insert distinct field Json.null
    refine holds _ nulled distinct' accepted' ?_
    rw [Option.eq_none_iff_forall_ne_some]
    intro x held
    obtain ⟨found, filled⟩ := Record.held?_eq_some_iff.1 held
    obtain ⟨v, there, passed⟩ := (validateData_eq_ok (validateRequired_eq_ok accepted')).2 (field, x)
      (Keyed.mem_of_get? found)
    -- the keys are distinct, so what stands there comes from the null
    have written := (Keyed.get?_eq_some_iff distinct').2 there
    rw [Keyed.get?_insert_self] at written
    have null : x.isNull = true := by
      rw [isNull_of_checkEntry passed, ← Option.some.inj written]
      rfl
    exact absurd (null.symm.trans filled) (by simp)

end Schema

/-! ### What a collection refuses -/

/-- A document is refused as breaking a rule exactly if it holds nothing in a required field. -/
theorem Collection.check_invalid_iff {c : Collection} {name : String} {doc : Record}
    {others : List Record} :
    (∃ e, c.check name doc others = .error e ∧ e.ofStore = .checkConstraintViolation) ↔
      ∃ field ∈ c.rules.required, doc.held? field = none := by
  have missing : (c.missingField? doc).isSome = true ↔
      ∃ field ∈ c.rules.required, doc.held? field = none := by
    simp [missingField?]
  rw [← missing, check]
  cases c.missingField? doc with
  | some field =>
      simp [NativeError.ofStore, NativeError.invalidDocumentCode, NativeError.duplicateKeyCode]
  | none =>
      cases c.takenField? doc others with
      | some field => simp [NativeError.ofStore, NativeError.duplicateKeyCode]
      | none => simp

namespace MemoryStore

variable {store : MemoryStore} {name : String} {doc : Record}

/-- So is an insert. -/
theorem insert_invalid_iff :
    (∃ e, (store.insert name doc).1 = .error e ∧ e.ofStore = .checkConstraintViolation) ↔
      ∃ field ∈ (store.collection name).rules.required, doc.held? field = none := by
  have invalid := @Collection.check_invalid_iff (store.collection name) name doc (store.documents name)
  rw [← invalid]
  rcases inserted : store.insert name doc with ⟨e | stored, store'⟩
  · simp [insert_refused inserted]
  · obtain ⟨rfl, passed, -⟩ := collection_insert inserted
    simp [passed]

/-- Beside no other documents a document that holds its required fields is stored. -/
theorem insert_alone (alone : store.documents name = [])
    (complete : ¬ ∃ field ∈ (store.collection name).rules.required, doc.held? field = none) :
    ∃ store', store.insert name doc = (.ok doc, store') ∧ store'.documents name = [doc] := by
  have passed : (store.collection name).check name doc (store.documents name) = .ok () := by
    rw [alone, Collection.check_eq_ok_iff]
    exact ⟨fun field required lacks => complete ⟨field, required, lacks⟩, by simp⟩
  rcases inserted : store.insert name doc with ⟨e | stored, store'⟩
  · exact absurd (passed.symm.trans (insert_refused inserted)) (by simp)
  · obtain ⟨rfl, -, collections⟩ := collection_insert inserted
    refine ⟨store', rfl, ?_⟩
    rw [documents, collections, if_pos rfl, alone]
    rfl

end MemoryStore

namespace Schema

variable {s : Schema} {record : Record}

/-- What is left of a record without the generated fields. -/
theorem get?_withoutGenerated (distinct : (Keyed.keys record).Nodup) (field : String) :
    (Generates s field → Keyed.get? (DocumentDatasource.withoutGenerated s record) field = none) ∧
      (¬ Generates s field →
        Keyed.get? (DocumentDatasource.withoutGenerated s record) field = record.get? field) := by
  have fold (columns : List Column) : ∀ {record : Record}, (Keyed.keys record).Nodup →
      Keyed.get? (columns.foldl (fun data c => data.swapErase c.field) record) field =
        if field ∈ columns.map Column.field then none else record.get? field := by
    induction columns with
    | nil => simp
    | cons c rest ih =>
        intro record distinct
        rw [List.foldl_cons, ih (Keyed.nodup_keys_swapErase distinct c.field),
          Keyed.get?_swapErase distinct]
        by_cases here : field = c.field <;> simp [here]
  have generated : field ∈ (s.columns.filter Column.isServerGenerated).map Column.field ↔
      s.Generates field := by
    simp [Generates, and_assoc]
  rw [DocumentDatasource.withoutGenerated, fold _ distinct]
  constructor
  · intro h
    rw [if_pos (generated.2 h)]
  · intro h
    rw [if_neg (mt generated.1 h)]

theorem isNull_storedForm (field : String) (v : Json) : (s.storedForm field v).isNull = v.isNull := by
  rw [storedForm]
  cases s.column? field with
  | none => rfl
  | some c => exact isNull_coerceWrite c.type v .native

/-- The document of a record holds what the record does, but for the generated fields. -/
theorem held?_stored (distinct : (Keyed.keys record).Nodup) (field : String) :
    Record.held? (s.toStored (DocumentDatasource.withoutGenerated s record)) field = none ↔
      s.Generates field ∨ record.held? field = none := by
  obtain ⟨gone, kept⟩ := get?_withoutGenerated (s := s) distinct field
  rw [Record.held?, get?_toStored]
  by_cases generated : s.Generates field
  · simp [gone generated, generated]
  · rw [kept generated, Record.held?]
    cases record.get? field with
    | none => simp
    | some v => simp [isNull_storedForm, generated]

end Schema

namespace Setting

open DataAccess.Action DocumentDatasource

variable (g : Setting) {s : Schema} {record : Record}

/-- Storing a record inserts its document, with a key of its own or a new one, and shapes it. -/
theorem runFrom_createOne_supplied {doc : Record} {u v : World}
    (supplied : supplyKey g.freshKey (s.toStored (withoutGenerated s record)) u = (doc, v)) :
    runFrom (g.documents.createOne s record) u =
      match v.store.insert s.table doc with
      | (.error e, store) => (.error e.ofStore, { v with store })
      | (.ok stored, store) => (s.shapeRow [] stored, { v with store }) := by
  have inserted := StoreCall.run_insertOne g s.table supplied
  have insertion : runFrom (ask (g.documents.store.insertOne s.table
      (s.toStored (withoutGenerated s record)))) u =
        ((v.store.insert s.table doc).1.mapError NativeError.ofStore,
          { v with store := (v.store.insert s.table doc).2 }) := by
    change (((g.store.insertOne s.table _).run u).1.mapError NativeError.ofStore,
      ((g.store.insertOne s.table _).run u).2) = _
    rw [inserted]
  rw [createOne, runFrom_bind, insertion]
  rcases v.store.insert s.table doc with ⟨e | stored, store⟩
  · rfl
  · exact runFrom_liftExcept _ _

section Supplied

variable {doc : Record} {u v : World}
  (supplied : supplyKey g.freshKey (s.toStored (withoutGenerated s record)) u = (doc, v))

include supplied

/-- A document that is given a key is the stored form of its record in all other fields. -/
theorem get?_supplied {field : String} (other : field ≠ documentKey) :
    doc.get? field = (s.toStored (withoutGenerated s record)).get? field := by
  obtain ⟨rfl | ⟨key, rfl⟩, -, -⟩ := StoreCall.supplyKey_effect g supplied
  · rfl
  · exact Keyed.get?_insert_of_ne other _ _

/-- It holds a key, and nothing in the fields that the server generates or that the record holds nothing
in. -/
theorem held?_supplied (distinct : (Keyed.keys record).Nodup) (field : String) :
    doc.held? field = none ↔
      field ≠ documentKey ∧ (s.Generates field ∨ record.held? field = none) := by
  obtain ⟨-, keyed, -⟩ := StoreCall.supplyKey_effect g supplied
  by_cases key : field = documentKey
  · simp [key, keyed]
  · have same : doc.held? field = Record.held? (s.toStored (withoutGenerated s record)) field := by
      rw [Record.held?, Record.held?, g.get?_supplied supplied key]
    rw [same, Schema.held?_stored distinct]
    simp [key]

/-- Storing a record breaks a rule exactly if the insert of its document does. -/
theorem createOne_invalid_iff :
    (runFrom (g.documents.createOne s record) u).1 = .error .checkConstraintViolation ↔
      ∃ e, (v.store.insert s.table doc).1 = .error e ∧ e.ofStore = .checkConstraintViolation := by
  rw [g.runFrom_createOne_supplied supplied]
  rcases v.store.insert s.table doc with ⟨e | stored, store⟩
  · simp
  · -- what was stored is shaped, and shaping refuses nothing for a rule
    constructor
    · intro failed
      obtain ⟨v, noun, unread⟩ := Schema.shapeRow_error failed
      exact absurd unread (by simp [unreadable])
    · rintro ⟨e, refused, -⟩
      exact absurd refused (by simp)

end Supplied

/-- A collection with the rules of a schema refuses a record for a required field, the key apart, that
the server generates or that the record holds nothing in; a record that it does not refuse and that
meets no other documents is stored. -/
theorem createOne_refused_iff (distinct : (Keyed.keys record).Nodup) {u : World}
    (rules : (u.store.collection s.table).rules = s.collectionRules) :
    ((runFrom (g.documents.createOne s record) u).1 = .error .checkConstraintViolation ↔
      ∃ field ∈ s.collectionRules.required, field ≠ documentKey ∧
        (s.Generates field ∨ record.held? field = none)) ∧
    (u.documents s.table = [] →
      (runFrom (g.documents.createOne s record) u).1 ≠ .error .checkConstraintViolation →
      ∃ doc : Record, (runFrom (g.documents.createOne s record) u).2.documents s.table = [doc] ∧
        ∀ field ≠ documentKey,
          doc.get? field = (s.toStored (withoutGenerated s record)).get? field) := by
  obtain ⟨doc, v, supplied⟩ : ∃ doc v,
      supplyKey g.freshKey (s.toStored (withoutGenerated s record)) u = (doc, v) := ⟨_, _, rfl⟩
  obtain ⟨-, -, issued, same⟩ := StoreCall.supplyKey_effect g supplied
  have store : v.store = u.store := by rw [same]
  have refused := g.createOne_invalid_iff supplied
  rw [MemoryStore.insert_invalid_iff, store, rules] at refused
  constructor
  · rw [refused]
    simp only [g.held?_supplied supplied distinct]
  · intro empty other
    have complete := mt refused.2 other
    rw [← rules] at complete
    obtain ⟨store', inserted, documents⟩ := MemoryStore.insert_alone empty complete
    refine ⟨doc, ?_, fun field => g.get?_supplied supplied⟩
    rw [g.runFrom_createOne_supplied supplied, store, inserted]
    exact documents

theorem runFrom_createTable (valid : s.validateStructure = .ok ()) {w : World} (empty : w.store = []) :
    runFrom (g.documents.createTable s) w =
      (.ok (), { w with store := [(s.table, ⟨[], s.collectionRules⟩)] }) := by
  obtain ⟨store, cache, issued⟩ := w
  obtain rfl : store = [] := empty
  rw [createTable, valid, runFrom_bind]
  rfl

/-- **A new collection stores all accepted records exactly if each field that it requires is
demanded.**  The collection of a schema, made in an empty store, refuses an accepted record for a
required field, the key apart, that the server generates or that the record holds nothing in, and it
stores all others.  If any record is accepted at all, it refuses none of them exactly if no required
field but the key is generated and each of them is demanded. -/
theorem stores_accepted_iff (valid : s.validateStructure = .ok ()) {w : World} (empty : w.store = []) :
    ∃ v, runFrom (g.documents.createTable s) w = (.ok (), v) ∧
      (∀ data record : Record, (Keyed.keys data).Nodup → s.validateRequired data = .ok record →
        ((runFrom (g.documents.createOne s record) v).1 = .error .checkConstraintViolation ↔
          ∃ field ∈ s.collectionRules.required, field ≠ documentKey ∧
            (s.Generates field ∨ record.held? field = none)) ∧
        ((runFrom (g.documents.createOne s record) v).1 ≠ .error .checkConstraintViolation →
          ∃ doc : Record, (runFrom (g.documents.createOne s record) v).2.documents s.table = [doc] ∧
            ∀ field ≠ documentKey,
              doc.get? field = (s.toStored (withoutGenerated s record)).get? field)) ∧
      ((∃ data record : Record, (Keyed.keys data).Nodup ∧ s.validateRequired data = .ok record) →
        ((∀ data record : Record, (Keyed.keys data).Nodup → s.validateRequired data = .ok record →
          (runFrom (g.documents.createOne s record) v).1 ≠ .error .checkConstraintViolation) ↔
        ∀ field ∈ s.collectionRules.required, field ≠ documentKey →
          ¬ s.Generates field ∧ s.Demands field)) := by
  refine ⟨_, g.runFrom_createTable valid empty, ?_⟩
  generalize made : World.mk [(s.table, ⟨[], s.collectionRules⟩)] w.cache w.issued = v
  have fresh : v.store.collection s.table = ⟨[], s.collectionRules⟩ := by
    rw [← made]
    simp [MemoryStore.collection]
  have keys {data record : Record} (distinct : (Keyed.keys data).Nodup)
      (accepted : s.validateRequired data = .ok record) : (Keyed.keys record).Nodup := by
    rw [(Schema.validateData_eq_ok (Schema.validateRequired_eq_ok accepted)).1]
    exact distinct
  have rules : (v.store.collection s.table).rules = s.collectionRules := by rw [fresh]
  have empty' : v.documents s.table = [] := congrArg Collection.documents fresh
  constructor
  · intro data record distinct accepted
    obtain ⟨refused, stored⟩ := g.createOne_refused_iff (keys distinct accepted) rules
    exact ⟨refused, stored empty'⟩
  · intro some_accepted
    constructor
    · intro never field required other
      -- a field that may lack a value would have a record refused
      have holds (data record : Record) (distinct : (Keyed.keys data).Nodup)
          (accepted : s.validateRequired data = .ok record) :
          ¬ (s.Generates field ∨ record.held? field = none) := by
        intro lacking
        have refused := (g.createOne_refused_iff (keys distinct accepted) rules).1
        exact never data record distinct accepted (refused.2 ⟨field, required, other, lacking⟩)
      obtain ⟨data, record, distinct, accepted⟩ := id some_accepted
      refine ⟨fun generated => holds data record distinct accepted (.inl generated), ?_⟩
      refine (Schema.accepted_holds_iff some_accepted).1 ?_
      intro data record distinct accepted absent
      exact holds data record distinct accepted (.inr absent)
    · intro demanded data record distinct accepted refused
      obtain ⟨field, required, other, lacking⟩ :=
        (g.createOne_refused_iff (keys distinct accepted) rules).1.1 refused
      obtain ⟨kept, demands⟩ := demanded field required other
      rcases lacking with generated | absent
      · exact kept generated
      · exact demands.held accepted absent

/-- Notes under generated keys, with a title that must be given; it may be null or not. -/
def notes (nullable : Bool) : Schema :=
  .ofColumns "notes" [{ Column.serverKey documentKey with type := .string },
    { Column.plain "title" .string with required := true, nullable }] []

/-- If titles may not be null, every accepted note is stored. -/
theorem stores_accepted_notes : ∃ v,
    runFrom (tally.documents.createTable (notes false)) nothingStored = (.ok (), v) ∧
    (∀ data record : Record, (Keyed.keys data).Nodup → (notes false).validateRequired data = .ok record →
      (runFrom (tally.documents.createOne (notes false) record) v).1 ≠
        .error .checkConstraintViolation) ∧
    ∃ doc : Record, (runFrom (tally.documents.createOne (notes false) [("title", .string "Buy milk")])
        v).2.documents "notes" = [doc] ∧ doc.get? "title" = some (.string "Buy milk") := by
  obtain ⟨v, created, each, all⟩ :=
    tally.stores_accepted_iff (s := notes false) rfl (w := nothingStored) rfl
  have distinct : (Keyed.keys ([("title", .string "Buy milk")] : Record)).Nodup := by simp
  have accepted : (notes false).validateRequired [("title", .string "Buy milk")] =
      .ok [("title", .string "Buy milk")] := by rfl
  have demanded : ∀ field ∈ (notes false).collectionRules.required, field ≠ documentKey →
      ¬ (notes false).Generates field ∧ (notes false).Demands field := by
    have required : (notes false).collectionRules.required = ["title"] := by decide +kernel
    intro field member _
    rw [required, List.mem_singleton] at member
    subst member
    refine ⟨?_, ?_, ?_⟩
    · simp [Schema.Generates, notes, Schema.ofColumns, Column.isServerGenerated, Column.serverKey,
        Column.plain, documentKey]
    · simp [notes, Schema.ofColumns, Column.serverKey, Column.plain, documentKey]
    · intro c column
      obtain rfl := Option.some.inj column
      decide
  have stored := (all ⟨_, _, distinct, accepted⟩).2 demanded
  obtain ⟨doc, alone, fields⟩ := (each _ _ distinct accepted).2 (stored _ _ distinct accepted)
  refine ⟨v, created, stored, doc, alone, ?_⟩
  rw [fields "title" (by decide)]
  rfl

/-- If they may be null, the note with null for its title is accepted, and its collection refuses it. -/
theorem refused_untitled : (notes true).validateStructure = .ok () ∧
    (notes true).validateRequired [("title", .null)] = .ok [("title", .null)] ∧
    ∃ v, runFrom (tally.documents.createTable (notes true)) nothingStored = (.ok (), v) ∧
      (runFrom (tally.documents.createOne (notes true) [("title", .null)]) v).1 =
        .error .checkConstraintViolation := by
  refine ⟨rfl, rfl, _, tally.runFrom_createTable rfl rfl, ?_⟩
  exact Outcome.failsWith_iff.1 (by decide +kernel)

end Setting

end DataAccess
