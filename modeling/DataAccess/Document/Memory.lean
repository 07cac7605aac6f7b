import DataAccess.Document.Store
/-
**Documents in memory.**  A store of collections as a value.  Every write is checked against the
rules of its collection before it takes place: required fields first, then the key and the unique
fields, each against all other documents.

Main definitions:

* `Collection` — documents in order of insertion, with rules;
* `Collection.check` — whether a document may stand beside the others;
* `MemoryStore` — collections by name;
* `MemoryStore.create`, `MemoryStore.insert`, `MemoryStore.update`, `MemoryStore.delete` — the
  writes;
* `MemoryStore.find`, `MemoryStore.count` — the reads;
* `MemoryStore.inState` — the operations of a document store over a state that holds it.

Main results:

* `MemoryStore.collection_put_self`, `MemoryStore.collection_put_of_ne` — a write touches one
  collection.
-/

set_option autoImplicit false

namespace DataAccess

/-! ### Collections -/

/-- The documents of a collection, in order of insertion, with its rules. -/
structure Collection where
  documents : List Record
  rules : CollectionRules
deriving Repr

namespace Collection

/-- A collection without documents and rules. -/
def empty : Collection := ⟨[], ⟨[], []⟩⟩

/-- Whether two documents hold the same value in a field. -/
def clash (a b : Record) (field : String) : Bool :=
  match a.held? field, b.held? field with
  | some v, some w => w.same v
  | _, _ => false

/-- The first required field that a document does not hold. -/
def missingField? (c : Collection) (doc : Record) : Option String :=
  c.rules.required.find? fun field => (doc.held? field).isNone

/-- The first field, the key in front, in which a document clashes with one of the others. -/
def takenField? (c : Collection) (doc : Record) (others : List Record) : Option String :=
  (documentKey :: c.rules.unique).find? fun field => others.any fun d => clash doc d field

/-- Refuses a document that breaks a rule of the collection beside the others. -/
def check (c : Collection) (name : String) (doc : Record) (others : List Record) :
    Except NativeError Unit :=
  match c.missingField? doc with
  | some field =>
    .error ⟨some NativeError.invalidDocumentCode,
      s!"Document failed validation: {field} is required"⟩
  | none =>
    match c.takenField? doc others with
    | some field =>
      let value := ((doc.get? field).getD .null).text
      .error ⟨some NativeError.duplicateKeyCode,
        s!"E11000 duplicate key error collection: {name} index: {field} dup key: {value}"⟩
    | none => .ok ()

/-- A document with a field written into it; the key is never written. -/
def assign (doc : Record) (entry : String × Json) : Record :=
  if entry.1 = documentKey then doc else doc.insert entry.1 entry.2

/-- A document with fields written into it. -/
def assignAll (doc fields : Record) : Record := fields.foldl assign doc

/-- The documents before and after the first match, and the match. -/
def splitFirst (filter : Filter) : List Record → Option (List Record × Record × List Record)
  | [] => none
  | d :: rest =>
    if Filter.accepts d filter then some ([], d, rest)
    else (splitFirst filter rest).map fun (before, found, after) => (d :: before, found, after)

/-- A document cut down to the fields of a projection and the key. -/
def projected (projection : Option (List String)) (doc : Record) : Record :=
  match projection with
  | some fields => doc.filter fun entry => entry.1 = documentKey || fields.contains entry.1
  | none => doc

theorem splitFirst_eq {filter : Filter} {docs before after : List Record} {found : Record}
    (h : splitFirst filter docs = some (before, found, after)) :
    docs = before ++ found :: after ∧ Filter.accepts found filter = true := by
  induction docs generalizing before with
  | nil => simp [splitFirst] at h
  | cons d rest ih =>
    unfold splitFirst at h
    split at h
    · next hd =>
      simp only [Option.some.injEq, Prod.mk.injEq] at h
      obtain ⟨rfl, rfl, rfl⟩ := h
      exact ⟨rfl, hd⟩
    · obtain ⟨⟨b, f, a⟩, hs, he⟩ := Option.map_eq_some_iff.1 h
      simp only [Prod.mk.injEq] at he
      obtain ⟨rfl, rfl, rfl⟩ := he
      obtain ⟨rfl, hf⟩ := ih hs
      exact ⟨rfl, hf⟩

end Collection

/-! ### The store -/

/-- Collections by name. -/
abbrev MemoryStore := Keyed Collection

namespace MemoryStore

/-- The collection with a name; a missing one is empty. -/
def collection (s : MemoryStore) (name : String) : Collection := (s.get? name).getD .empty

/-- The store with a collection replaced or added. -/
def put (s : MemoryStore) (name : String) (c : Collection) : MemoryStore := Keyed.insert s name c

@[simp] theorem collection_put_self (s : MemoryStore) (name : String) (c : Collection) :
    (put s name c).collection name = c := by
  simp [collection, put]

theorem collection_put_of_ne {name other : String} (h : other ≠ name) (s : MemoryStore)
    (c : Collection) : (put s name c).collection other = s.collection other := by
  simp [collection, put, Keyed.get?_insert_of_ne h]

/-- The names of the collections in order. -/
def names (s : MemoryStore) : List String := (Keyed.keys s).mergeSort fun a b => decide (a ≤ b)

/-- Adds an empty collection; one that exists is left alone. -/
def create (s : MemoryStore) (name : String) (rules : CollectionRules) :
    Except NativeError Unit × MemoryStore :=
  if s.contains name then (.error ⟨some "48", s!"Collection {name} already exists"⟩, s)
  else (.ok (), s.put name ⟨[], rules⟩)

/-- Adds a document; a collection that does not exist yet is added, also when the document is
refused. -/
def insert (s : MemoryStore) (name : String) (doc : Record) :
    Except NativeError Record × MemoryStore :=
  let c := s.collection name
  match c.check name doc c.documents with
  | .ok () => (.ok doc, s.put name { c with documents := c.documents ++ [doc] })
  | .error e => (.error e, s.put name c)

/-- The documents of a read. -/
def find (s : MemoryStore) (name : String) (filter : Filter) (read : StoreRead) : List Record :=
  let found := sorted read.sort
    ((s.collection name).documents.filter fun d => Filter.accepts d filter)
  let rest := found.drop read.skip
  (match read.limit with
    | some limit => rest.take limit
    | none => rest).map (Collection.projected read.projection)

/-- The number of matching documents. -/
def count (s : MemoryStore) (name : String) (filter : Filter) : Nat :=
  ((s.collection name).documents.filter fun d => Filter.accepts d filter).length

/-- Writes fields into the first matching document. -/
def update (s : MemoryStore) (name : String) (filter : Filter) (fields : Record) :
    Except NativeError (Option Record) × MemoryStore :=
  let c := s.collection name
  match Collection.splitFirst filter c.documents with
  | none => (.ok none, s)
  | some (before, found, after) =>
    let doc := Collection.assignAll found fields
    -- the document as it will be, beside all others
    match c.check name doc (before ++ after) with
    | .ok () => (.ok (some doc), s.put name { c with documents := before ++ doc :: after })
    | .error e => (.error e, s)

/-- Removes the first matching document. -/
def delete (s : MemoryStore) (name : String) (filter : Filter) : Nat × MemoryStore :=
  let c := s.collection name
  match Collection.splitFirst filter c.documents with
  | none => (0, s)
  | some (before, _, after) => (1, s.put name { c with documents := before ++ after })

/-- The store as a part of a larger state; `freshKey` gives the key of a document without one. -/
def inState {σ : Type} (part : σ → MemoryStore) (update : MemoryStore → σ → σ)
    (freshKey : StateM σ String) : DocumentStore (StateM σ) where
  ping := return ()
  listCollections := return (part (← get)).names
  createCollection name rules := ExceptT.mk fun w =>
    let (result, s) := (part w).create name rules
    (result, update s w)
  uniqueIndexes name := return ((part (← get)).collection name).rules.unique
  insertOne name doc := ExceptT.mk do
    let doc ← supplyKey freshKey doc
    modifyGet fun w =>
      let (result, s) := (part w).insert name doc
      (result, update s w)
  find name filter read := return (part (← get)).find name filter read
  count name filter := return (part (← get)).count name filter
  updateOne name filter fields := ExceptT.mk fun w =>
    let (result, s) := (part w).update name filter fields
    (result, update s w)
  deleteOne name filter := ExceptT.mk fun w =>
    let (removed, s) := (part w).delete name filter
    (.ok removed, update s w)

end MemoryStore

end DataAccess
