import DataAccess.Document.Datasource
import DataAccess.Document.Memory
import DataAccess.Proofs.Json.Keyed
/-
**Documents by their key.**  Every operation on one document looks for the first one that passes the
filter of its key.  Where keys are texts, passing that filter is holding the key; and no write is
accepted beside another document with the same key, or refused as a duplicate beside documents that it
clashes with in no field.

Main definitions:

* `MemoryStore.documents` — the documents of a collection;
* `TextKeys` — documents whose keys are texts;
* `PlainFields` — documents whose field names have no meaning of their own in filters.

Main results:

* `accepts_clause`, `accepts_all` — filters of one field and of several filters;
* `TextKeys.accepts_iff` — **the filter of a key accepts the documents that hold it**;
* `Collection.splitFirst_eq_some` — the first match, and what stands before it;
* `Collection.check_eq_ok_iff` — what the check of a document asks for;
* `Collection.key_free_of_check` — an accepted document has a key of its own;
* `Collection.check_free` — a document that clashes with no other one is no duplicate;
* `MemoryStore.find_limited`, `MemoryStore.find_first` — the documents of a limited read, and of one that
  reads a single document;
* `MemoryStore.collection_insert`, `MemoryStore.collection_update`,
  `MemoryStore.collection_delete` — what the writes do to all collections;
* `MemoryStore.insert_refused`, `MemoryStore.update_refused` — what refuses them.
-/

set_option autoImplicit false

namespace DataAccess

/-! ### Filters -/

/-- A filter of one clause asks its field, unless the name of the field has a meaning of its own. -/
theorem accepts_clause {field : String} (plain : field ≠ "$and" ∧ field ≠ "$or") (doc : Record)
    (asked : Json) :
    Filter.accepts doc (.object [(field, asked)]) = Filter.admits (doc.get? field) asked := by
  simp [Filter.accepts, Filter.acceptsClauses, plain]

/-- A field is asked for what one operator says. -/
theorem admits_operator {operator : String} (dollar : operator.toList.head? = some '$')
    (stored : Option Json) (operand : Json) :
    Filter.admits stored (.object [(operator, operand)]) =
      Filter.meets stored [(operator, operand)] operator operand := by
  have operators : Filter.isOperators [(operator, operand)] = true := by
    simp [Filter.isOperators, dollar]
  simp [Filter.admits, operators]

/-- A field is asked for one value. -/
theorem admits_equal (stored : Option Json) (v : Json) :
    Filter.admits stored (.object [("$eq", v)]) = Filter.equal stored v :=
  admits_operator (by decide) stored v

/-- A field is asked for any other value. -/
theorem admits_unequal (stored : Option Json) (v : Json) :
    Filter.admits stored (.object [("$ne", v)]) = !Filter.equal stored v :=
  admits_operator (by decide) stored v

/-- A field is asked for one of several values. -/
theorem admits_listed (stored : Option Json) (items : List Json) :
    Filter.admits stored (.object [("$in", .array items)]) = items.any (Filter.equal stored) :=
  admits_operator (by decide) stored (.array items)

/-- All of several filters are passed when each of them is. -/
theorem accepts_all (doc : Record) (filters : List Filter) :
    Filter.accepts doc (Filter.all filters) = filters.all (Filter.accepts doc) := by
  match filters with
  | [] => rfl
  | [f] => simp [Filter.all]
  | f :: g :: rest =>
      simp [Filter.all, Filter.accepts, Filter.acceptsClauses, Filter.acceptsEvery,
        Filter.acceptsAll_eq]

/-! ### Fields that are held -/

/-- A field holds what is found in it and is not null. -/
theorem Record.held?_eq_some_iff {doc : Record} {field : String} {v : Json} :
    doc.held? field = some v ↔ doc.get? field = some v ∧ v.isNull = false := by
  rw [held?]
  cases found : doc.get? field with
  | none => simp
  | some w =>
      simp only [Option.some.injEq]
      split
      · next null =>
        constructor
        · intro absent
          exact absurd absent (by simp)
        · rintro ⟨rfl, filled⟩
          exact absurd (null.symm.trans filled) (by simp)
      · next filled =>
        rw [Option.some.injEq]
        constructor
        · rintro rfl
          exact ⟨rfl, Bool.eq_false_iff.2 filled⟩
        · exact And.left

/-- A name that does not start with a dollar sign has no meaning of its own in filters. -/
theorem plain_of_head {field : String} (start : field.toList.head? ≠ some '$') :
    field ≠ "$and" ∧ field ≠ "$or" := by
  constructor
  · rintro rfl
    exact start (by decide)
  · rintro rfl
    exact start (by decide)

/-- Documents whose field names do not start with a dollar sign. -/
def PlainFields (docs : List Record) : Prop :=
  ∀ doc ∈ docs, ∀ field ∈ Keyed.keys doc, field.toList.head? ≠ some '$'

/-- No field that such a document holds has a meaning of its own in filters. -/
theorem PlainFields.plain {docs : List Record} (plain : PlainFields docs) {d : Record}
    (member : d ∈ docs) {field : String} {v : Json} (held : d.held? field = some v) :
    field ≠ "$and" ∧ field ≠ "$or" := by
  have found := Keyed.mem_keys (Keyed.mem_of_get? (Record.held?_eq_some_iff.1 held).1)
  exact plain_of_head (plain d member field found)

/-! ### The filter of a key -/

theorem plain_documentKey : documentKey ≠ "$and" ∧ documentKey ≠ "$or" := by decide

theorem accepts_keyFilter (doc : Record) (id : Json) :
    Filter.accepts doc (keyFilter id) = Filter.equal (doc.get? documentKey) id := by
  rw [keyFilter, accepts_clause plain_documentKey, admits_equal]

/-- A text equals the same text and nothing else. -/
theorem equal_text_iff (k : String) (v : Json) :
    Filter.equal (some (.string k)) v = true ↔ v = .string k := by
  cases v with
  | string t =>
      have order : (compareOfLessAndEq k t == .eq) = true ↔ k = t := by
        unfold compareOfLessAndEq
        by_cases less : k < t
        · have ne : k ≠ t := fun eq => String.lt_irrefl t (eq ▸ less)
          simp [less, ne]
        · by_cases eq : k = t
          · simp [eq]
          · simp [less, eq]
      have either : (compareOfLessAndEq k t == .eq || k == t) = true ↔ k = t := by
        rw [Bool.or_eq_true, order, beq_iff_eq, or_self]
      rw [Json.string.injEq, @eq_comm String, ← either]
      rfl
  | null => simp [Filter.equal, Json.compare?, Json.same]
  | bool b => simp [Filter.equal, Json.compare?, Json.same]
  | number n => simp [Filter.equal, Json.compare?, Json.same]
  | array items => simp [Filter.equal, Json.compare?, Json.same]
  | object fields => simp [Filter.equal, Json.compare?, Json.same]

/-- What is the same as a stored value equals it loosely. -/
theorem equal_of_same {w v : Json} (filled : w.isNull = false) (same : w.same v = true) :
    Filter.equal (some w) v = true := by
  cases w with
  | null => exact absurd filled (by simp [Json.isNull])
  | _ => simp [Filter.equal, same]

theorem same_text {w : Json} {k : String} (same : w.same (.string k) = true) : w = .string k := by
  cases w with
  | string t => simpa [Json.same] using same
  | _ => exact absurd same (by simp [Json.same])

/-- Documents whose keys are texts. -/
def TextKeys (docs : List Record) : Prop :=
  ∀ doc ∈ docs, ∃ k, doc.get? documentKey = some (.string k)

/-- **The filter of a key accepts the documents that hold it.** -/
theorem TextKeys.accepts_iff {docs : List Record} (texts : TextKeys docs) {doc : Record}
    (member : doc ∈ docs) (id : Json) :
    Filter.accepts doc (keyFilter id) = true ↔ doc.get? documentKey = some id := by
  obtain ⟨k, key⟩ := texts doc member
  rw [accepts_keyFilter, key, equal_text_iff, Option.some.injEq]
  exact eq_comm

/-! ### The first match -/

namespace Collection

theorem splitFirst_eq_none {filter : Filter} {docs : List Record} :
    splitFirst filter docs = none ↔ docs.find? (Filter.accepts · filter) = none := by
  induction docs with
  | nil => simp [splitFirst]
  | cons d rest ih =>
      rw [splitFirst, List.find?_cons]
      cases accepted : Filter.accepts d filter with
      | true => simp
      | false => simpa using ih

/-- The first match is found, and nothing before it matches. -/
theorem splitFirst_eq_some {filter : Filter} {docs before after : List Record} {found : Record}
    (h : splitFirst filter docs = some (before, found, after)) :
    docs.find? (Filter.accepts · filter) = some found ∧
      ∀ d ∈ before, Filter.accepts d filter = false := by
  induction docs generalizing before with
  | nil => exact absurd h (by simp [splitFirst])
  | cons d rest ih =>
      rw [splitFirst] at h
      rw [List.find?_cons]
      cases accepted : Filter.accepts d filter with
      | true =>
          rw [accepted, if_pos rfl] at h
          simp only [Option.some.injEq, Prod.mk.injEq] at h
          obtain ⟨rfl, rfl, rfl⟩ := h
          exact ⟨rfl, fun d h => absurd h List.not_mem_nil⟩
      | false =>
          rw [accepted, if_neg Bool.false_ne_true] at h
          obtain ⟨⟨init, first, others⟩, split, parts⟩ := Option.map_eq_some_iff.1 h
          simp only [Prod.mk.injEq] at parts
          obtain ⟨rfl, rfl, rfl⟩ := parts
          obtain ⟨found, earlier⟩ := ih split
          refine ⟨found, fun e member => ?_⟩
          rcases List.mem_cons.1 member with rfl | member
          · exact accepted
          · exact earlier e member

/-- A document passes the check exactly when it holds the required fields and clashes with no other
document, neither in its key nor in a unique field. -/
theorem check_eq_ok_iff {c : Collection} {name : String} {doc : Record} {others : List Record} :
    c.check name doc others = .ok () ↔
      (∀ field ∈ c.rules.required, doc.held? field ≠ none) ∧
        ∀ field ∈ documentKey :: c.rules.unique, ∀ d ∈ others, clash doc d field = false := by
  have held : c.missingField? doc = none ↔ ∀ field ∈ c.rules.required, doc.held? field ≠ none := by
    simp [missingField?]
  have free : c.takenField? doc others = none ↔
      ∀ field ∈ documentKey :: c.rules.unique, ∀ d ∈ others, clash doc d field = false := by
    rw [takenField?, List.find?_eq_none]
    simp only [List.any_eq_true, not_exists, not_and, Bool.not_eq_true]
  rw [← held, ← free, check]
  cases c.missingField? doc with
  | some field => simp
  | none =>
      cases c.takenField? doc others with
      | some field => simp
      | none => simp

theorem clash_eq_false_iff {doc other : Record} {field : String} :
    clash doc other field = false ↔
      ∀ v w, doc.held? field = some v → other.held? field = some w → w.same v = false := by
  rw [clash]
  cases doc.held? field with
  | none => simp
  | some v =>
      cases other.held? field with
      | none => simp
      | some w => simp

/-- A document that clashes with no other one may miss a required field, but is no duplicate. -/
theorem check_free {c : Collection} {name : String} {doc : Record} {others : List Record}
    (free : ∀ field ∈ documentKey :: c.rules.unique, ∀ d ∈ others, clash doc d field = false)
    {e : NativeError} (refused : c.check name doc others = .error e) :
    e.ofStore ≠ .duplicateRecord := by
  have untaken : c.takenField? doc others = none := by
    rw [takenField?, List.find?_eq_none]
    intro field member
    simpa using free field member
  rw [check] at refused
  cases missing : c.missingField? doc with
  | some field =>
      simp only [missing] at refused
      rw [← Except.error.inj refused]
      simp [NativeError.ofStore, NativeError.invalidDocumentCode, NativeError.duplicateKeyCode]
  | none => simp [missing, untaken] at refused

/-- A document that passes the check breaks no rule of uniqueness, that of the key included. -/
theorem key_free_of_check {c : Collection} {name : String} {doc : Record} {others : List Record}
    (passed : c.check name doc others = .ok ()) {k : String}
    (key : doc.get? documentKey = some (.string k)) :
    ∀ d ∈ others, d.get? documentKey ≠ some (.string k) := by
  intro d member same
  have apart := (check_eq_ok_iff.1 passed).2 documentKey List.mem_cons_self d member
  have clashing : clash doc d documentKey = true := by
    simp [clash, Record.held?, key, same, Json.isNull, Json.same]
  exact absurd (clashing.symm.trans apart) (by simp)

end Collection

/-! ### Writes -/

namespace MemoryStore

/-- The documents of a collection. -/
def documents (s : MemoryStore) (name : String) : List Record := (s.collection name).documents

/-- A limited read returns the first matches. -/
theorem find_limited (s : MemoryStore) (name : String) (filter : Filter) (limit : Nat) :
    s.find name filter (.first limit) =
      ((s.documents name).filter (Filter.accepts · filter)).take limit := by
  have whole : Collection.projected none = fun doc => doc := rfl
  simp only [find, StoreRead.first, StoreRead.everything, sorted_noFields, List.drop_zero, whole,
    List.map_id']
  rfl

/-- Reading one document is finding the first match. -/
theorem find_first (s : MemoryStore) (name : String) (filter : Filter) :
    s.find name filter (.first 1) =
      ((s.documents name).find? (Filter.accepts · filter)).toList := by
  rw [find_limited, List.take_one, List.head?_filter]

/-- A limited read without a filter returns the first documents. -/
theorem find_unfiltered (s : MemoryStore) (name : String) (limit : Nat) :
    s.find name (.object []) (.first limit) = (s.documents name).take limit := by
  rw [find_limited]
  exact congrArg (List.take limit) (List.filter_eq_self.2 fun _ _ => rfl)

theorem collection_put (s : MemoryStore) (name other : String) (c : Collection) :
    (s.put name c).collection other = if other = name then c else s.collection other := by
  by_cases h : other = name
  · rw [if_pos h, h, collection_put_self]
  · rw [if_neg h, collection_put_of_ne h]

/-- An accepted document goes last; a refused one leaves all collections as they are. -/
theorem collection_insert {s s' : MemoryStore} {name : String} {doc : Record}
    {result : Except NativeError Record} (h : s.insert name doc = (result, s')) :
    match result with
    | .error _ => ∀ other, s'.collection other = s.collection other
    | .ok stored => stored = doc ∧ (s.collection name).check name doc (s.documents name) = .ok () ∧
        ∀ other, s'.collection other =
          if other = name then { s.collection name with documents := s.documents name ++ [doc] }
          else s.collection other := by
  rw [insert] at h
  cases checked : (s.collection name).check name doc (s.collection name).documents with
  | error e =>
      simp only [checked] at h
      obtain ⟨rfl, rfl⟩ := Prod.mk.inj h
      intro other
      rw [collection_put]
      split
      · next same => rw [same]
      · rfl
  | ok _ =>
      simp only [checked] at h
      obtain ⟨rfl, rfl⟩ := Prod.mk.inj h
      exact ⟨rfl, checked, fun other => collection_put s name other _⟩

/-- An update changes the first match, if the result is accepted beside all others. -/
theorem collection_update {s s' : MemoryStore} {name : String} {filter : Filter} {fields : Record}
    {result : Except NativeError (Option Record)} (h : s.update name filter fields = (result, s')) :
    match result with
    | .error _ => s' = s
    | .ok none => s' = s ∧ (s.documents name).find? (Filter.accepts · filter) = none
    | .ok (some doc) => ∃ before found after,
        s.documents name = before ++ found :: after ∧
        (s.documents name).find? (Filter.accepts · filter) = some found ∧
        (∀ d ∈ before, Filter.accepts d filter = false) ∧
        doc = Collection.assignAll found fields ∧
        (s.collection name).check name doc (before ++ after) = .ok () ∧
        ∀ other, s'.collection other =
          if other = name then { s.collection name with documents := before ++ doc :: after }
          else s.collection other := by
  rw [update] at h
  cases split : Collection.splitFirst filter (s.collection name).documents with
  | none =>
      simp only [split] at h
      obtain ⟨rfl, rfl⟩ := Prod.mk.inj h
      exact ⟨rfl, Collection.splitFirst_eq_none.1 split⟩
  | some parts =>
      obtain ⟨before, found, after⟩ := parts
      simp only [split] at h
      cases checked : (s.collection name).check name (Collection.assignAll found fields)
          (before ++ after) with
      | error e =>
          simp only [checked] at h
          obtain ⟨rfl, rfl⟩ := Prod.mk.inj h
          rfl
      | ok _ =>
          simp only [checked] at h
          obtain ⟨rfl, rfl⟩ := Prod.mk.inj h
          obtain ⟨first, earlier⟩ := Collection.splitFirst_eq_some split
          exact ⟨before, found, after, (Collection.splitFirst_eq split).1, first, earlier, rfl,
            checked, fun other => collection_put s name other _⟩

/-- An insert is refused by the check of the document. -/
theorem insert_refused {s s' : MemoryStore} {name : String} {doc : Record} {e : NativeError}
    (h : s.insert name doc = (.error e, s')) :
    (s.collection name).check name doc (s.documents name) = .error e := by
  rw [insert] at h
  cases checked : (s.collection name).check name doc (s.collection name).documents with
  | ok _ =>
      simp only [checked] at h
      exact absurd (Prod.mk.inj h).1 (by simp)
  | error e' =>
      simp only [checked] at h
      obtain rfl := Except.error.inj (Prod.mk.inj h).1
      exact checked

/-- An update is refused by the check of the changed document. -/
theorem update_refused {s s' : MemoryStore} {name : String} {filter : Filter} {fields : Record}
    {e : NativeError} (h : s.update name filter fields = (.error e, s')) :
    ∃ before found after, s.documents name = before ++ found :: after ∧
      Filter.accepts found filter = true ∧
      (s.collection name).check name (Collection.assignAll found fields) (before ++ after) =
        .error e := by
  rw [update] at h
  cases split : Collection.splitFirst filter (s.collection name).documents with
  | none =>
      simp only [split] at h
      exact absurd (Prod.mk.inj h).1 (by simp)
  | some parts =>
      obtain ⟨before, found, after⟩ := parts
      obtain ⟨held, accepted⟩ := Collection.splitFirst_eq split
      simp only [split] at h
      cases checked : (s.collection name).check name (Collection.assignAll found fields)
          (before ++ after) with
      | ok _ =>
          simp only [checked] at h
          exact absurd (Prod.mk.inj h).1 (by simp)
      | error e' =>
          simp only [checked] at h
          obtain rfl := Except.error.inj (Prod.mk.inj h).1
          exact ⟨before, found, after, held, accepted, checked⟩

/-- A delete removes the first match. -/
theorem collection_delete {s s' : MemoryStore} {name : String} {filter : Filter} {removed : Nat}
    (h : s.delete name filter = (removed, s')) :
    (removed = 0 ∧ s' = s ∧ (s.documents name).find? (Filter.accepts · filter) = none) ∨
    (removed = 1 ∧ ∃ before found after,
        s.documents name = before ++ found :: after ∧
        (s.documents name).find? (Filter.accepts · filter) = some found ∧
        (∀ d ∈ before, Filter.accepts d filter = false) ∧
        ∀ other, s'.collection other =
          if other = name then { s.collection name with documents := before ++ after }
          else s.collection other) := by
  rw [delete] at h
  cases split : Collection.splitFirst filter (s.collection name).documents with
  | none =>
      simp only [split] at h
      obtain ⟨rfl, rfl⟩ := Prod.mk.inj h
      exact .inl ⟨rfl, rfl, Collection.splitFirst_eq_none.1 split⟩
  | some parts =>
      obtain ⟨before, found, after⟩ := parts
      simp only [split] at h
      obtain ⟨rfl, rfl⟩ := Prod.mk.inj h
      obtain ⟨first, earlier⟩ := Collection.splitFirst_eq_some split
      exact .inr ⟨rfl, before, found, after, (Collection.splitFirst_eq split).1, first, earlier,
        fun other => collection_put s name other _⟩

/-- Collections that are replaced hold the documents of what replaces them. -/
theorem documents_replaced {s s' : MemoryStore} {name : String} {c : Collection}
    (h : ∀ other, s'.collection other = if other = name then c else s.collection other)
    (other : String) :
    s'.documents other = if other = name then c.documents else s.documents other := by
  rw [documents, h]
  split <;> rfl

end MemoryStore

end DataAccess
