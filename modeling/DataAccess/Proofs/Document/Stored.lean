import Mathlib.Data.List.Forall2
import DataAccess.Document.Datasource
import DataAccess.Document.Memory
import DataAccess.Proofs.Document.Inference
import DataAccess.Proofs.Json.Keyed
import DataAccess.Proofs.Schema.Validating
/-
**What is stored can be read.**  A row without joined values is shaped field by field, so shaping it
fails exactly if one of its fields cannot be read.  Writing readable fields into a readable document
leaves it readable, and the stored form of every validated field is readable.  So a document that was
shaped once can be shaped after each accepted write.

Main definitions:

* `Schema.Readable` — every field of a row can be read;
* `Schema.storedForm` — the form in which a field is stored;
* `Schema.Written` — what is written of a record.

Main results:

* `Schema.exists_shapeRow`, `Schema.shapeRow_error` — a readable row is shaped, and shaping fails only on
  values that cannot be read;
* `Schema.written_of_valid` — **validated fields are stored in a readable form**;
* `Collection.get?_assignAll`, `Schema.Readable.assignAll` — fields written into a document.
-/

set_option autoImplicit false

namespace DataAccess

namespace Schema

variable {s : Schema} {table : String} {row : Record}

/-! ### Readable rows -/

/-- Every field of a row can be read. -/
def Readable (s : Schema) (row : Record) : Prop :=
  ∀ entry ∈ row, ∃ v, s.readField entry.1 entry.2 = .ok v

/-- Without joined tables every key is a field of the base table. -/
theorem shapeEntry_flat (s : Schema) (out : Record) (entry : String × Json) :
    s.shapeEntry [] out entry = (s.readField entry.1 entry.2).map (out.insert entry.1) := by
  rw [shapeEntry]
  cases Text.cutLast '.' entry.1 with
  | none => rfl
  | some cut => rfl

/-- A row is shaped exactly if it is readable. -/
theorem exists_shapeRow : (∃ r, s.shapeRow [] row = .ok r) ↔ s.Readable row := by
  suffices ∀ out, (∃ r, row.foldlM (s.shapeEntry []) out = .ok r) ↔ s.Readable row from this []
  induction row with
  | nil => exact fun out => ⟨fun _ _ h => absurd h List.not_mem_nil, fun _ => ⟨out, rfl⟩⟩
  | cons entry rest ih =>
      intro out
      constructor
      · rintro ⟨r, shaped⟩
        obtain ⟨next, first, others⟩ := Outcome.foldlM_cons_eq_ok.1 shaped
        rw [shapeEntry_flat] at first
        intro e member
        rcases List.mem_cons.1 member with rfl | member
        · obtain ⟨v, read, -⟩ := Outcome.map_eq_ok.1 first
          exact ⟨v, read⟩
        · exact (ih next).1 ⟨r, others⟩ e member
      · intro readable
        obtain ⟨v, read⟩ := readable entry List.mem_cons_self
        obtain ⟨r, others⟩ := (ih (Keyed.insert out entry.1 v)).2
          fun e member => readable e (List.mem_cons_of_mem _ member)
        refine ⟨r, Outcome.foldlM_cons_eq_ok.2 ⟨_, ?_, others⟩⟩
        rw [shapeEntry_flat, read]
        rfl

/-- Shaping a row fails only on a value that cannot be read. -/
theorem shapeRow_error {s : Schema} {row : Record} {e : DataError}
    (h : s.shapeRow [] row = .error e) : ∃ v noun, e = unreadable v noun := by
  obtain ⟨out, entry, -, failed⟩ := Outcome.exists_of_foldlM_eq_error h
  rw [shapeEntry_flat, readField] at failed
  cases column : s.column? entry.1 with
  | none =>
      rw [column] at failed
      cases failed
  | some c =>
      simp only [column] at failed
      cases read : coerceRead c.type entry.2 with
      | ok v =>
          rw [read] at failed
          cases failed
      | error e' =>
          rw [read] at failed
          obtain rfl : e' = e := Except.error.inj failed
          obtain ⟨noun, unread⟩ := coerceRead_error read
          exact ⟨entry.2, noun, unread⟩

theorem shapeRow_ne_duplicate (s : Schema) (row : Record) :
    s.shapeRow [] row ≠ .error .duplicateRecord := by
  intro failed
  obtain ⟨v, noun, unread⟩ := shapeRow_error failed
  exact absurd unread (by simp [unreadable])

theorem Readable.insert (h : s.Readable row) {field : String} {v r : Json}
    (read : s.readField field v = .ok r) : s.Readable (Keyed.insert row field v) := by
  intro entry member
  rcases Keyed.mem_of_mem_insert member with before | rfl
  · exact h entry before
  · exact ⟨r, read⟩

/-! ### The stored form -/

/-- The form in which a field is stored. -/
def storedForm (s : Schema) (field : String) (v : Json) : Json :=
  match s.column? field with
  | some c => coerceWrite c.type v .native
  | none => v

theorem toStored_eq (s : Schema) (data : Record) :
    s.toStored data = data.map fun entry => (entry.1, s.storedForm entry.1 entry.2) := by
  refine List.map_congr_left fun entry _ => ?_
  obtain ⟨key, v⟩ := entry
  simp only [storedForm]
  cases s.column? key <;> rfl

theorem get?_toStored (s : Schema) (data : Record) (field : String) :
    (s.toStored data).get? field = (data.get? field).map (s.storedForm field) := by
  rw [toStored_eq]
  exact Keyed.get?_mapValues s.storedForm data field

/-- An accepted value is stored as its normalised form is. -/
theorem storedForm_of_accepted {field : String} {v n : Json} (accepted : s.checkEntry field v = .ok n) :
    s.storedForm field n = s.storedForm field v := by
  rw [storedForm, storedForm]
  cases accepts_iff.2 accepted with
  | primaryKey => rfl
  | value column _ checked =>
      simp only [column]
      exact coerceWrite_of_accepted checked .native

/-- A validated record is stored as the data are. -/
theorem storedForm_of_valid {data record : Record} (valid : s.validateData data = .ok record)
    (field : String) :
    (record.get? field).map (s.storedForm field) = (data.get? field).map (s.storedForm field) := by
  have entries := validateData_entries valid
  clear valid
  induction entries with
  | nil => rfl
  | @cons before after data record first _ ih =>
      obtain ⟨same, accepted⟩ := first
      obtain ⟨key, n⟩ := after
      obtain rfl : key = before.1 := same
      rw [Keyed.get?_cons, Keyed.get?_cons]
      by_cases here : before.1 = field
      · subst here
        rw [if_pos rfl, if_pos rfl]
        exact congrArg some (storedForm_of_accepted accepted)
      · rw [if_neg here, if_neg here]
        exact ih

/-- Every field of a validated record has a column. -/
theorem exists_column {data record : Record} (valid : s.validateData data = .ok record)
    {field : String} (held : field ∈ Keyed.keys record) : ∃ c, s.column? field = some c := by
  obtain ⟨entry, member, rfl⟩ := List.mem_map.1 held
  obtain ⟨v, -, accepted⟩ := (validateData_eq_ok valid).2 entry member
  rw [checkEntry] at accepted
  cases column : s.column? entry.1 with
  | none => simp [column] at accepted
  | some c => exact ⟨c, rfl⟩

/-- A validated field other than the key is stored in a readable form. -/
theorem IsInferred.readField_storedForm (inferred : s.IsInferred table) {field : String}
    {v n : Json} (accepted : s.checkEntry field v = .ok n) (other : field ≠ documentKey) :
    ∃ r, s.readField field (s.storedForm field n) = .ok r := by
  rw [checkEntry] at accepted
  cases column : s.column? field with
  | none => simp [column] at accepted
  | some c =>
      have optional := (inferred.inferredColumn column other).primaryKey
      rw [column] at accepted
      simp only [optional, Bool.false_eq_true, if_false] at accepted
      rw [readField, storedForm, column]
      exact exists_coerceRead accepted .native

/-- **Validated fields other than the key are stored in a readable form.** -/
theorem readable_toStored (inferred : s.IsInferred table) {data record part : Record}
    (valid : s.validateData data = .ok record) (fields : ∀ entry ∈ part, entry ∈ record)
    (keyless : documentKey ∉ Keyed.keys part) : s.Readable (s.toStored part) := by
  rw [toStored_eq]
  intro entry stored
  obtain ⟨written, member, rfl⟩ := List.mem_map.1 stored
  obtain ⟨v, -, accepted⟩ := (validateData_eq_ok valid).2 written (fields written member)
  have other : written.1 ≠ documentKey := fun eq => keyless (eq ▸ Keyed.mem_keys member)
  exact inferred.readField_storedForm accepted other

/-- What is written of a record: its fields as they are stored, without the key. -/
structure Written (s : Schema) (record part : Record) : Prop where
  keys : (Keyed.keys part).Nodup
  keyless : part.get? documentKey = none
  fields : ∀ field, field ≠ documentKey →
    part.get? field = (record.get? field).map (s.storedForm field)
  readable : s.Readable part

/-- A validated record is written readably. -/
theorem written_of_valid (inferred : s.IsInferred table) {data record : Record}
    (distinct : (Keyed.keys data).Nodup) (valid : s.validateData data = .ok record) :
    s.Written record (s.toStored (record.swapErase documentKey)) := by
  have keys : (Keyed.keys record).Nodup := by
    rw [(validateData_eq_ok valid).1]
    exact distinct
  have keyless : documentKey ∉ Keyed.keys (record.swapErase documentKey) := fun member =>
    (Keyed.keys_swapErase_subset keys member).2 rfl
  refine ⟨?_, ?_, fun field other => ?_, ?_⟩
  · rw [toStored_keys]
    exact Keyed.nodup_keys_swapErase keys documentKey
  · rw [Keyed.get?_eq_none_iff, toStored_keys]
    exact keyless
  · rw [get?_toStored, Keyed.get?_swapErase keys, if_neg other]
  · exact readable_toStored inferred valid
      (fun entry member => ((Keyed.mem_swapErase keys).1 member).1) keyless

end Schema

/-! ### Fields written into a document -/

namespace Collection

theorem get?_assign_key (doc : Record) (entry : String × Json) :
    (assign doc entry).get? documentKey = doc.get? documentKey := by
  rw [assign]
  split
  · rfl
  · next other => exact Keyed.get?_insert_of_ne (Ne.symm other) doc entry.2

/-- Writing fields into a document keeps its key. -/
theorem get?_assignAll_key (doc fields : Record) :
    (assignAll doc fields).get? documentKey = doc.get? documentKey := by
  induction fields generalizing doc with
  | nil => rfl
  | cons entry rest ih => exact (ih (assign doc entry)).trans (get?_assign_key doc entry)

/-- One field written into a document; the key is never written. -/
theorem get?_assign (doc : Record) (column : String) (v : Json) (field : String) :
    (assign doc (column, v)).get? field =
      if field = column ∧ column ≠ documentKey then some v else doc.get? field := by
  rw [assign]
  by_cases own : column = documentKey
  · rw [if_pos own, if_neg fun h => h.2 own]
  · rw [if_neg own]
    by_cases here : field = column
    · rw [if_pos ⟨here, own⟩, here, Keyed.get?_insert_self]
    · rw [if_neg fun h => here h.1, Keyed.get?_insert_of_ne here]

/-- A document with fields written into it holds the written values, and its own elsewhere. -/
theorem get?_assignAll (doc : Record) {fields : Record} (distinct : (Keyed.keys fields).Nodup)
    (field : String) : (assignAll doc fields).get? field =
      if field = documentKey then doc.get? field else (fields.get? field).or (doc.get? field) := by
  induction fields generalizing doc with
  | nil =>
      split <;> rfl
  | cons entry rest ih =>
      obtain ⟨key, v⟩ := entry
      obtain ⟨new, distinct⟩ := List.nodup_cons.1 distinct
      have step : assignAll doc ((key, v) :: rest) = assignAll (assign doc (key, v)) rest := rfl
      rw [step, ih _ distinct]
      by_cases own : field = documentKey
      · rw [if_pos own, if_pos own, own]
        exact get?_assign_key doc (key, v)
      · rw [if_neg own, if_neg own, Keyed.get?_cons, get?_assign]
        by_cases here : key = field
        · subst here
          have absent : Keyed.get? rest key = none := Keyed.get?_eq_none_iff.2 new
          rw [if_pos rfl, if_pos ⟨rfl, own⟩, absent, Option.none_or, Option.some_or]
        · rw [if_neg here, if_neg fun h => here h.1.symm]

end Collection

/-- A readable document stays readable when readable fields are written into it. -/
theorem Schema.Readable.assignAll {s : Schema} {doc fields : Record} (h : s.Readable doc)
    (written : s.Readable fields) : s.Readable (Collection.assignAll doc fields) := by
  induction fields generalizing doc with
  | nil => exact h
  | cons entry rest ih =>
      obtain ⟨r, read⟩ := written entry List.mem_cons_self
      refine ih ?_ fun e member => written e (List.mem_cons_of_mem _ member)
      rw [Collection.assign]
      split
      · exact h
      · exact h.insert read

end DataAccess
