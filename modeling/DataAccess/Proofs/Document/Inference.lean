import DataAccess.Document.Inference
import DataAccess.Proofs.Outcome
/-
**Inferred schemas.**  The columns that a sample shows begin with the key of the store; all others are
optional columns under names of their own.  So in an inferred schema the key is the primary key, the
only column that the store generates, and a text.

Main definitions:

* `InferredColumn` — a column as a stored field shows it;
* `Flagged` — columns that are unique where there is a unique index;
* `shownType`, `Typed` — the type that a sample shows for a field, and columns that have these types;
* `Schema.IsInferred` — a schema that a sample of documents shows.

Main results:

* `inferColumns_eq` — **the columns of a sample** are the key and inferred columns;
* `flagged_inferColumns` — the columns of a sample are flagged by the unique indexes;
* `typed_inferColumns` — **the columns of a sample have the types that it shows**;
* `Schema.IsInferred.primaryKeyField`, `Schema.IsInferred.column?_key` — the key of an inferred schema;
* `Schema.IsInferred.serverGenerated` — what the store generates for it.
-/

set_option autoImplicit false

namespace DataAccess

/-- An optional column that a stored field shows; the key of the store is none of them. -/
inductive InferredColumn : Column → Prop
  | field (name : String) (type : ColumnType) (unique : Bool) (other : name ≠ documentKey) :
      InferredColumn { Column.plain name type with uniqueKey := unique }

namespace InferredColumn

variable {c : Column}

theorem primaryKey (h : InferredColumn c) : c.primaryKey = false := by
  cases h with
  | field name type unique other => rfl

theorem withType (h : InferredColumn c) (type : ColumnType) : InferredColumn { c with type } := by
  cases h with
  | field name before unique other => exact .field name type unique other

end InferredColumn

/-- One more stored field keeps the key in front of inferred columns. -/
theorem inferField_eq (unique : List String) {rest : List Column}
    (inferred : ∀ c ∈ rest, InferredColumn c) (entry : String × Json) :
    ∃ more, inferField unique (keyColumn :: rest) entry = keyColumn :: more ∧
      ∀ c ∈ more, InferredColumn c := by
  unfold inferField
  by_cases known : ((keyColumn :: rest).any fun c => decide (c.field = entry.1)) = true
  · rw [if_pos known, List.map_cons]
    have typed : ¬ (keyColumn.field = entry.1 ∧ keyColumn.type = .unknown) := by
      rintro ⟨-, unknown⟩
      exact absurd unknown (by decide)
    rw [if_neg typed]
    refine ⟨_, rfl, fun c hc => ?_⟩
    obtain ⟨before, member, eq⟩ := List.mem_map.1 hc
    rw [← eq]
    split
    · exact (inferred before member).withType _
    · exact inferred before member
  · rw [if_neg known]
    refine ⟨rest ++ [_], rfl, fun c hc => ?_⟩
    rcases List.mem_append.1 hc with hc | hc
    · exact inferred c hc
    · rw [List.mem_singleton.1 hc]
      refine .field entry.1 _ _ fun key => known ?_
      rw [List.any_cons, key]
      rfl

/-- **The columns of a sample are the key and inferred columns.** -/
theorem inferColumns_eq (unique : List String) {sample : List Record} (some : sample ≠ []) :
    ∃ rest, inferColumns unique sample = keyColumn :: rest ∧ ∀ c ∈ rest, InferredColumn c := by
  -- the invariant of the fold over all stored fields
  have run (fields : List (String × Json)) : ∀ rest, (∀ c ∈ rest, InferredColumn c) →
      ∃ more, fields.foldl (inferField unique) (keyColumn :: rest) = keyColumn :: more ∧
        ∀ c ∈ more, InferredColumn c := by
    induction fields with
    | nil => exact fun rest inferred => ⟨rest, rfl, inferred⟩
    | cons field fields ih =>
        intro rest inferred
        obtain ⟨next, step, inferred⟩ := inferField_eq unique inferred field
        rw [List.foldl_cons, step]
        exact ih next inferred
  have filled : sample.isEmpty = false := by
    cases sample with
    | nil => exact absurd rfl some
    | cons doc rest => rfl
  rw [inferColumns, filled]
  exact run sample.flatten [] (fun c hc => absurd hc List.not_mem_nil)

/-! ### Unique columns -/

/-- Apart from the key, exactly the columns with a unique index are unique. -/
def Flagged (unique : List String) (columns : List Column) : Prop :=
  ∀ c ∈ columns, c.field ≠ documentKey → c.uniqueKey = unique.contains c.field

/-- One more stored field keeps the columns flagged. -/
theorem Flagged.inferField {unique : List String} {columns : List Column}
    (flagged : Flagged unique columns) (entry : String × Json) :
    Flagged unique (inferField unique columns entry) := by
  intro c member other
  rw [DataAccess.inferField] at member
  split at member
  · obtain ⟨before, there, eq⟩ := List.mem_map.1 member
    split at eq
    · subst eq
      exact flagged before there other
    · subst eq
      exact flagged before there other
  · rcases List.mem_append.1 member with before | new
    · exact flagged c before other
    · rw [List.mem_singleton.1 new]
      rfl

/-- The columns of a sample are flagged by the unique indexes. -/
theorem flagged_inferColumns (unique : List String) (sample : List Record) :
    Flagged unique (inferColumns unique sample) := by
  have run (fields : List (String × Json)) : ∀ columns, Flagged unique columns →
      Flagged unique (fields.foldl (inferField unique) columns) := by
    induction fields with
    | nil => exact fun columns flagged => flagged
    | cons field fields ih => exact fun columns flagged => ih _ (flagged.inferField field)
  rw [inferColumns]
  split
  · exact fun c member => absurd member List.not_mem_nil
  · refine run sample.flatten [keyColumn] fun c member other => ?_
    rw [List.mem_singleton.1 member] at other
    exact absurd rfl other

/-! ### The types of a sample -/

/-- The type that stored fields show for a name: that of its first value that is not null. -/
def shownType (fields : Record) (name : String) : ColumnType :=
  match fields.find? fun entry => decide (entry.1 = name) && !entry.2.isNull with
  | some entry => .ofStored (storedType entry.2)
  | none => .unknown

/-- Only null shows no type. -/
theorem ofStored_eq_unknown {v : Json} :
    ColumnType.ofStored (storedType v) = .unknown ↔ v.isNull = true := by
  cases v with
  | null => simp [storedType, ColumnType.ofStored, Json.isNull]
  | bool b => simp [storedType, ColumnType.ofStored, Json.isNull]
  | number n => cases n <;> simp [storedType, ColumnType.ofStored, Json.isNull]
  | string s =>
      rw [storedType]
      split <;> simp [ColumnType.ofStored, Json.isNull]
  | array items => simp [storedType, ColumnType.ofStored, Json.isNull]
  | object entries => simp [storedType, ColumnType.ofStored, Json.isNull]

/-- One more field shows a type only for its own name, and only if nothing was shown before. -/
theorem shownType_concat (fields : Record) (entry : String × Json) (name : String) :
    shownType (fields ++ [entry]) name =
      if entry.1 = name ∧ shownType fields name = .unknown then .ofStored (storedType entry.2)
      else shownType fields name := by
  cases found : fields.find? fun entry => decide (entry.1 = name) && !entry.2.isNull with
  | some first =>
      -- what was found is not null, so it shows a type
      have filled : ColumnType.ofStored (storedType first.2) ≠ .unknown := by
        have test := List.find?_some found
        rw [ne_eq, ofStored_eq_unknown]
        simp_all
      rw [shownType, shownType, List.find?_append, found]
      rw [if_neg fun both => filled both.2]
      rfl
  | none =>
      have last : shownType (fields ++ [entry]) name = shownType [entry] name := by
        rw [shownType, shownType, List.find?_append, found, Option.none_or]
      rw [last, shownType, shownType, found]
      by_cases same : entry.1 = name
      · rw [if_pos ⟨same, rfl⟩]
        cases null : entry.2.isNull with
        | true => simp [null, (ofStored_eq_unknown.2 null)]
        | false => simp [same, null]
      · simp [same]

theorem shownType_of_absent {fields : Record} {name : String} (absent : name ∉ Keyed.keys fields) :
    shownType fields name = .unknown := by
  have none : fields.find? (fun entry => decide (entry.1 = name) && !entry.2.isNull) = none := by
    refine List.find?_eq_none.2 fun entry member test => absent ?_
    rw [Bool.and_eq_true, decide_eq_true_eq] at test
    exact List.mem_map.2 ⟨entry, member, test.1⟩
  rw [shownType, none]

/-- The columns behind the key have the names of fields and the types that these show. -/
def Typed (fields : Record) (columns : List Column) : Prop :=
  ∀ name, name ≠ documentKey →
    (columns.find? fun c => decide (c.field = name)).map Column.type =
      if name ∈ Keyed.keys fields then some (shownType fields name) else none

/-- A stored field settles the type of its column, unless it is settled before. -/
theorem type_inferField (unique : List String) (columns : List Column) (entry : String × Json)
    (name : String) :
    ((inferField unique columns entry).find? fun c => decide (c.field = name)).map Column.type =
      if entry.1 = name ∧ ((columns.find? fun c => decide (c.field = name)).map Column.type).getD
          .unknown = .unknown then
        some (.ofStored (storedType entry.2))
      else (columns.find? fun c => decide (c.field = name)).map Column.type := by
  rw [inferField]
  by_cases known : (columns.any fun c => decide (c.field = entry.1)) = true
  · -- the columns keep their names, and one without a type may get it now
    rw [if_pos known, List.find?_map, Option.map_map]
    have tests : ((fun c : Column => decide (c.field = name)) ∘ fun c : Column =>
        if c.field = entry.1 ∧ c.type = .unknown then
          { c with type := ColumnType.ofStored (storedType entry.2) } else c) =
        fun c => decide (c.field = name) := by
      funext c
      by_cases gets : c.field = entry.1 ∧ c.type = .unknown <;> simp [gets]
    rw [tests]
    cases found : columns.find? fun c => decide (c.field = name) with
    | none =>
        have different : entry.1 ≠ name := by
          rintro rfl
          obtain ⟨c, member, named⟩ := List.any_eq_true.1 known
          exact absurd named (List.find?_eq_none.1 found c member)
        simp [different]
    | some c =>
        obtain rfl : c.field = name := by simpa using List.find?_some found
        by_cases gets : c.field = entry.1 ∧ c.type = .unknown
        · simp [gets]
        · have keeps : ¬ (entry.1 = c.field ∧ c.type = .unknown) := fun h => gets ⟨h.1.symm, h.2⟩
          simp [gets, keeps]
  · rw [if_neg known, List.find?_append]
    by_cases same : entry.1 = name
    · have absent : columns.find? (fun c => decide (c.field = name)) = none := by
        refine List.find?_eq_none.2 fun c member named => known ?_
        exact List.any_eq_true.2 ⟨c, member, by simpa [same] using named⟩
      simp [absent, Column.plain, same]
    · simp [Column.plain, same]

/-- One more stored field leaves columns with the types that are shown. -/
theorem Typed.inferField {fields : Record} {columns : List Column} (typed : Typed fields columns)
    (unique : List String) (entry : String × Json) :
    Typed (fields ++ [entry]) (inferField unique columns entry) := by
  intro name other
  have names : name ∈ Keyed.keys (fields ++ [entry]) ↔ name ∈ Keyed.keys fields ∨ name = entry.1 := by
    simp [Keyed.keys]
  rw [type_inferField, typed name other, shownType_concat]
  by_cases there : name ∈ Keyed.keys fields
  · rw [if_pos there, if_pos (names.2 (.inl there)), Option.getD_some]
    split <;> rfl
  · have untyped := shownType_of_absent there
    rw [if_neg there, Option.getD_none, untyped]
    by_cases same : entry.1 = name
    · rw [if_pos ⟨same, rfl⟩, if_pos (names.2 (.inr same.symm)), if_pos ⟨same, rfl⟩]
    · rw [if_neg fun both => same both.1, if_neg fun both => (names.1 both).elim there (Ne.symm same)]

/-- **The columns of a sample have the types that the sample shows.** -/
theorem typed_inferColumns (unique : List String) (sample : List Record) :
    Typed sample.flatten (inferColumns unique sample) := by
  have run (fields : Record) : ∀ seen columns, Typed seen columns →
      Typed (seen ++ fields) (fields.foldl (inferField unique) columns) := by
    induction fields with
    | nil => exact fun seen columns typed => by rwa [List.append_nil]
    | cons entry rest ih =>
        intro seen columns typed
        rw [List.append_cons, List.foldl_cons]
        exact ih _ _ (typed.inferField unique entry)
  have start : Typed [] [keyColumn] := by
    intro name other
    have foreign : ¬ keyColumn.field = name := fun same => other same.symm
    simp [Keyed.keys, foreign]
  cases sample with
  | nil => exact fun name _ => rfl
  | cons doc rest => exact run (doc :: rest).flatten [] [keyColumn] start

namespace Schema

/-- The schema of a table as a sample of documents shows it. -/
def IsInferred (s : Schema) (table : String) : Prop :=
  ∃ unique declared sample, sample ≠ [] ∧ s = inferred table unique declared sample

namespace IsInferred

variable {s : Schema} {table : String}

theorem columns_eq (h : s.IsInferred table) :
    ∃ rest, s.columns = keyColumn :: rest ∧ ∀ c ∈ rest, InferredColumn c := by
  obtain ⟨unique, declared, sample, some, rfl⟩ := h
  exact inferColumns_eq unique some

theorem table_eq (h : s.IsInferred table) : s.table = table := by
  obtain ⟨unique, declared, sample, -, rfl⟩ := h
  rfl

/-- The store's key is the primary key. -/
theorem primaryKeyField (h : s.IsInferred table) : s.primaryKeyField = .ok documentKey := by
  obtain ⟨rest, columns, -⟩ := h.columns_eq
  rw [Schema.primaryKeyField, columns]
  rfl

theorem column?_key (h : s.IsInferred table) : s.column? documentKey = some keyColumn := by
  obtain ⟨rest, columns, -⟩ := h.columns_eq
  rw [column?, columns]
  rfl

/-- Any other column is an inferred one. -/
theorem inferredColumn (h : s.IsInferred table) {field : String} {c : Column}
    (column : s.column? field = some c) (other : field ≠ documentKey) : InferredColumn c := by
  obtain ⟨rest, columns, inferred⟩ := h.columns_eq
  rw [column?, columns] at column
  have named : c.field = field := by simpa using List.find?_some column
  rcases List.mem_cons.1 (List.mem_of_find?_eq_some column) with rfl | member
  · exact absurd named.symm other
  · exact inferred c member

/-- The key is the one column that the store generates. -/
theorem serverGenerated (h : s.IsInferred table) :
    s.columns.filter Column.isServerGenerated = [keyColumn] := by
  obtain ⟨rest, columns, inferred⟩ := h.columns_eq
  have others : rest.filter Column.isServerGenerated = [] := by
    refine List.filter_eq_nil_iff.2 fun c member => ?_
    rw [Column.isServerGenerated, (inferred c member).primaryKey, Bool.false_and]
    exact Bool.false_ne_true
  have key : keyColumn.isServerGenerated = true := rfl
  rw [columns, List.filter_cons, key, others]
  rfl

end IsInferred

end Schema

end DataAccess
