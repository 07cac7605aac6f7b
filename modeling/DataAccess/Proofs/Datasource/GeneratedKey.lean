import DataAccess.Sql.Datasource
import DataAccess.Proofs.Document.Stored
/-
**A key that is given although the server generates it.**  The key of a table may be generated when a
record is stored, and yet stand in the record.  Validation takes any value for it, requires none, and
leaves the other fields as they are.  Neither kind of datasource writes it, and the written row is read
back without it.  Among the unique values to look for it counts like any other.

Main definitions:

* `Schema.GeneratesKey` — the server generates the key of a table;
* `Column.looksFor` — whether a check of unique fields looks for a value.

Main results:

* `Schema.GeneratesKey.validateRequired_insert` — **a given key changes nothing for the other fields**;
* `Schema.GeneratesKey.createOne_insert`, `Schema.GeneratesKey.createOne_insert_sql` — **what is stored
  does not depend on it**;
* `Schema.GeneratesKey.uniqueCandidates_insert` — it is one more value to look for.
-/

set_option autoImplicit false

namespace DataAccess

/-- Columns that a record lacks need not be removed from it. -/
theorem Record.foldl_swapErase_absent {columns : List Column} {r : Record}
    (absent : ∀ d ∈ columns, r.get? d.field = none) :
    columns.foldl (fun r d => r.swapErase d.field) r = r := by
  induction columns with
  | nil => rfl
  | cons d rest ih =>
      obtain ⟨here, there⟩ := List.forall_mem_cons.1 absent
      rw [List.foldl_cons, Keyed.swapErase_absent (Keyed.get?_eq_none_iff.1 here), ih there]

/-! ### Generated keys -/

/-- The first column that is flagged as a key is generated by the server, and it is the only one with
its name. -/
structure Schema.GeneratesKey (s : Schema) (c : Column) : Prop where
  key : s.primaryKeyField = .ok c.field
  generated : c.isServerGenerated = true
  only : s.columns.filter (fun d => d.field = c.field) = [c]

/-- Whether a check of unique fields looks for a value of a column. -/
def Column.looksFor (c : Column) (identity : List String) (v : Json) : Bool :=
  (c.uniqueKey || identity.contains c.field) && !v.isNull

namespace Schema.GeneratesKey

variable {s : Schema} {c : Column} (generates : s.GeneratesKey c)

include generates

theorem column? : s.column? c.field = some c := by
  rw [Schema.column?, ← List.head?_filter, generates.only]
  rfl

/-- No other column has the name of the key. -/
theorem eq_of_field {d : Column} (member : d ∈ s.columns) (same : d.field = c.field) : d = c := by
  have found : d ∈ s.columns.filter fun d => d.field = c.field :=
    List.mem_filter.2 ⟨member, decide_eq_true same⟩
  rw [generates.only] at found
  exact List.mem_singleton.1 found

/-- The other columns, in front of the key and behind it. -/
theorem exists_columns : ∃ before after, s.columns = before ++ c :: after ∧
    (∀ d ∈ before, d.field ≠ c.field) ∧ ∀ d ∈ after, d.field ≠ c.field := by
  obtain ⟨before, after, columns, earlier, -, later⟩ := List.filter_eq_cons_iff.1 generates.only
  refine ⟨before, after, columns, fun d member same => ?_, fun d member same => ?_⟩
  · exact earlier d member (decide_eq_true same)
  · exact List.filter_eq_nil_iff.1 later d member (decide_eq_true same)

theorem primaryKey : c.primaryKey = true := (Bool.and_eq_true_iff.1 generates.generated).1

theorem autoIncrement : c.autoIncrement = true := (Bool.and_eq_true_iff.1 generates.generated).2

/-! ### Validation -/

/-- Any value is accepted as a key, and as it is. -/
theorem checkEntry_key (k : Json) : s.checkEntry c.field k = .ok k := by
  simp only [checkEntry, generates.column?, generates.primaryKey, if_true]

theorem validateEntries_append (data : Record) (k : Json) :
    s.validateEntries (data ++ [(c.field, k)]) =
      ((s.validateEntries data).1 ++ [(c.field, k)], (s.validateEntries data).2) := by
  induction data with
  | nil => simp only [List.nil_append, validateEntries, generates.checkEntry_key]
  | cons entry rest ih =>
      obtain ⟨key, v⟩ := entry
      rw [List.cons_append, validateEntries, ih, validateEntries]
      cases s.checkEntry key v <;> rfl

variable {data : Record} (absent : data.get? c.field = none) (k : Json)

include absent

theorem validateData_insert : s.validateData (data.insert c.field k) =
    (fun record => record.insert c.field k) <$> s.validateData data := by
  rw [Keyed.insert_absent (Keyed.get?_eq_none_iff.1 absent), validateData,
    generates.validateEntries_append, validateData]
  rcases entries : s.validateEntries data with ⟨fields, issues⟩
  cases issues with
  | cons issue more => rfl
  | nil =>
      have valid : s.validateData data = .ok fields := by rw [validateData, entries]
      have left : c.field ∉ Keyed.keys fields := by
        rw [(validateData_eq_ok valid).1]
        exact Keyed.get?_eq_none_iff.1 absent
      change Except.ok (fields ++ [(c.field, k)]) = Except.ok (fields.insert c.field k)
      rw [Keyed.insert_absent left]

/-- No generated key is required. -/
theorem missing_insert : s.missing (data.insert c.field k) = s.missing data := by
  refine List.filter_congr fun d member => ?_
  by_cases own : d.field = c.field
  · obtain rfl := generates.eq_of_field member own
    simp only [generates.autoIncrement, Bool.not_true, Bool.and_false, Bool.false_and]
  · simp only [Keyed.contains, Keyed.get?_insert_of_ne own]

/-- **A given key changes nothing for the other fields**: the same records are accepted, they are
normalised alike, and the same is found wrong with the others. -/
theorem validateRequired_insert : s.validateRequired (data.insert c.field k) =
    (fun record => record.insert c.field k) <$> s.validateRequired data := by
  rw [validateRequired, generates.missing_insert absent, generates.validateData_insert absent,
    validateRequired]
  cases s.missing data with
  | nil => rfl
  | cons d rest => cases s.validateData data <;> rfl

theorem outcome_insert : (s.validateRequired (data.insert c.field k)).outcome =
    (fun record => record.insert c.field k) <$> (s.validateRequired data).outcome := by
  rw [generates.validateRequired_insert absent]
  cases s.validateRequired data <;> rfl

omit absent

/-! ### Storing -/

variable (record : Record)

/-- No generated column is written. -/
theorem inserted_insert :
    Statement.inserted s (record.insert c.field k) = Statement.inserted s record := by
  refine List.filterMap_congr fun d member => ?_
  by_cases own : d.field = c.field
  · obtain rfl := generates.eq_of_field member own
    rw [if_pos generates.generated, if_pos generates.generated]
  · rw [Keyed.get?_insert_of_ne own]

/-- The statement that writes a row does not depend on a given key. -/
theorem statement_insert (style : Returning) :
    Statement.insert style s (record.insert c.field k) = Statement.insert style s record := by
  simp only [Statement.insert, generates.inserted_insert]

section Effects

variable {m : Type → Type}

/-- The written row is read back by the key that the server made. -/
theorem readInserted_insert (d : SqlDatasource m) :
    d.readInserted s (record.insert c.field k) = d.readInserted s record := by
  simp only [SqlDatasource.readInserted, generates.key, bind, Except.bind, generates.column?,
    Option.map_some, Option.getD_some, generates.generated, if_true]

variable [Monad m]

/-- **What a relational datasource stores does not depend on a given key.** -/
theorem createOne_insert_sql (d : SqlDatasource m) :
    d.createOne s (record.insert c.field k) = d.createOne s record := by
  simp only [SqlDatasource.createOne, generates.statement_insert, generates.readInserted_insert]

variable {record} (unkeyed : ∀ d ∈ s.columns, d.isServerGenerated = true → record.get? d.field = none)

include unkeyed

/-- A record that holds no generated key is stored in the order of its fields. -/
theorem withoutGenerated_insert : DocumentDatasource.withoutGenerated s (record.insert c.field k) =
    DocumentDatasource.withoutGenerated s record := by
  obtain ⟨before, after, columns, earlier, -⟩ := generates.exists_columns
  rw [columns, List.forall_mem_append, List.forall_mem_cons] at unkeyed
  obtain ⟨first, own, -⟩ := unkeyed
  have new : c.field ∉ Keyed.keys record := Keyed.get?_eq_none_iff.1 (own generates.generated)
  have front : ∀ d ∈ before.filter Column.isServerGenerated, record.get? d.field = none :=
    fun d member => first d (List.mem_filter.1 member).1 (List.mem_filter.1 member).2
  have front' : ∀ d ∈ before.filter Column.isServerGenerated,
      (record.insert c.field k).get? d.field = none := fun d member =>
    (Keyed.get?_insert_of_ne (earlier d (List.mem_filter.1 member).1) record k).trans
      (front d member)
  rw [DocumentDatasource.withoutGenerated, DocumentDatasource.withoutGenerated, columns,
    List.filter_append, List.filter_cons_of_pos generates.generated, List.foldl_append,
    List.foldl_append, Record.foldl_swapErase_absent front, Record.foldl_swapErase_absent front',
    List.foldl_cons, List.foldl_cons, Keyed.swapErase_insert new, Keyed.swapErase_absent new]

/-- **What a document datasource stores does not depend on a given key.** -/
theorem createOne_insert (d : DocumentDatasource m) :
    d.createOne s (record.insert c.field k) = d.createOne s record := by
  simp only [DocumentDatasource.createOne, generates.withoutGenerated_insert k unkeyed]

end Effects

end Schema.GeneratesKey

/-! ### Unique values -/

namespace Schema

variable {s : Schema} {identity : List String}

/-- Columns are looked at one after another. -/
theorem uniqueCandidates_append {first second : List Column} (columns : s.columns = first ++ second)
    (record : Record) : s.uniqueCandidates identity record =
      ({ s with columns := first } : Schema).uniqueCandidates identity record ++
        ({ s with columns := second } : Schema).uniqueCandidates identity record := by
  simp only [uniqueCandidates, columns, List.filter_append, List.filterMap_append]

theorem uniqueCandidates_congr {record record' : Record}
    (same : ∀ c ∈ s.columns, record.get? c.field = record'.get? c.field) :
    s.uniqueCandidates identity record = s.uniqueCandidates identity record' := by
  refine List.filterMap_congr fun c member => ?_
  rw [same c (List.mem_filter.1 member).1]

theorem uniqueCandidates_single (s : Schema) {c : Column} {record : Record} {v : Json}
    (held : record.get? c.field = some v) :
    ({ s with columns := [c] } : Schema).uniqueCandidates identity record =
      if c.looksFor identity v then [(c, v)] else [] := by
  simp only [uniqueCandidates, List.filter_cons, List.filter_nil]
  by_cases looked : (c.uniqueKey || identity.contains c.field) = true
  · have asked : c.looksFor identity v = !v.isNull := by
      rw [Column.looksFor, looked, Bool.true_and]
    rw [if_pos looked, asked]
    cases null : v.isNull <;> simp [held, null]
  · have unasked : c.looksFor identity v = false := by
      rw [Column.looksFor, Bool.eq_false_iff.2 looked, Bool.false_and]
    rw [if_neg looked, unasked]
    rfl

theorem uniqueCandidates_absent (s : Schema) {c : Column} {record : Record}
    (absent : record.get? c.field = none) :
    ({ s with columns := [c] } : Schema).uniqueCandidates identity record = [] := by
  refine List.filterMap_eq_nil_iff.2 fun d member => ?_
  obtain rfl := List.mem_singleton.1 (List.mem_filter.1 member).1
  rw [absent]

/-- A given key is one more value to look for, if the check looks for its column. -/
theorem GeneratesKey.uniqueCandidates_insert {c : Column} (generates : s.GeneratesKey c)
    {record : Record} (absent : record.get? c.field = none) (k : Json) (identity : List String) :
    ∃ before after, s.uniqueCandidates identity record = before ++ after ∧
      s.uniqueCandidates identity (record.insert c.field k) =
        before ++ ((if c.looksFor identity k then [(c, k)] else []) ++ after) := by
  obtain ⟨before, after, columns, earlier, later⟩ := generates.exists_columns
  have split (r : Record) : s.uniqueCandidates identity r =
      ({ s with columns := before } : Schema).uniqueCandidates identity r ++
        (({ s with columns := [c] } : Schema).uniqueCandidates identity r ++
          ({ s with columns := after } : Schema).uniqueCandidates identity r) := by
    rw [uniqueCandidates_append columns]
    exact congrArg (_ ++ ·) (uniqueCandidates_append rfl r)
  refine ⟨({ s with columns := before } : Schema).uniqueCandidates identity record,
    ({ s with columns := after } : Schema).uniqueCandidates identity record, ?_, ?_⟩
  · rw [split, uniqueCandidates_absent s absent, List.nil_append]
  · have others {columns : List Column} (named : ∀ d ∈ columns, d.field ≠ c.field) :
        ({ s with columns } : Schema).uniqueCandidates identity (record.insert c.field k) =
          ({ s with columns } : Schema).uniqueCandidates identity record :=
      uniqueCandidates_congr fun d member => Keyed.get?_insert_of_ne (named d member) record k
    rw [split, uniqueCandidates_single s (Keyed.get?_insert_self record c.field k),
      others earlier, others later]

end Schema

end DataAccess
