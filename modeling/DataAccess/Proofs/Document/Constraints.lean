import DataAccess.Proofs.Document.Stored
import DataAccess.Proofs.Engine.InMemory
import DataAccess.Proofs.Json.Same
/-
**What the store guarantees.**  Clients create collections and insert, change and remove documents, in
any order and with any documents, filters and fields.  Whatever they do and whichever of their calls
fail, every document has a key of its own, unique fields are unique and required fields are present.

Main definitions:

* `Apart` — two documents that agree neither in their keys nor in a unique field;
* `Collection.Sound` — the rules of a collection hold for its documents;
* `StoreCall`, `StoreCall.perform`, `StoreCall.performAll` — the writes of clients, one after another;
* `StoreCall.Effect` — all that a write can do to the collections.

Main results:

* `Collection.Sound.apart_of_mem` — a document is apart from all others;
* `Collection.Sound.stand` — a document that passes the check may stand anywhere beside the others;
* `StoreCall.effect_perform` — what a write does;
* `StoreCall.Effect.sound` — a write keeps all collections sound;
* `Setting.sound_performAll` — **after any writes all collections are sound**.
-/

set_option autoImplicit false

namespace DataAccess

/-! ### Rules that hold -/

/-- Two documents that agree neither in their keys nor in a unique field, unless one of them holds
nothing there. -/
def Apart (rules : CollectionRules) (a b : Record) : Prop :=
  ∀ field ∈ documentKey :: rules.unique, ∀ v w, a.held? field = some v → b.held? field = some w →
    v.same w = false

/-- The documents of a collection are proper values with a key, any two of them are apart, and each
holds the required fields. -/
structure Collection.Sound (c : Collection) : Prop where
  proper : ∀ doc ∈ c.documents, (Json.object doc).Proper
  keyed : ∀ doc ∈ c.documents, doc.held? documentKey ≠ none
  apart : c.documents.Pairwise fun a b => Apart c.rules a b ∧ Apart c.rules b a
  complete : ∀ doc ∈ c.documents, ∀ field ∈ c.rules.required, doc.held? field ≠ none

namespace Collection

theorem sound_empty : empty.Sound := ⟨by simp [empty], by simp [empty], .nil, by simp [empty]⟩

/-- A proper document that does not clash with another one is apart from it, seen from both. -/
theorem apart_of_clash {rules : CollectionRules} {doc other : Record}
    (proper : (Json.object doc).Proper) (proper' : (Json.object other).Proper)
    (free : ∀ field ∈ documentKey :: rules.unique, clash doc other field = false) :
    Apart rules doc other ∧ Apart rules other doc := by
  have value {d : Record} {field : String} {v : Json} (h : (Json.object d).Proper)
      (held : d.held? field = some v) : v.Proper := h.get? (Record.held?_eq_some_iff.1 held).1
  constructor
  · intro field member v w hv hw
    rw [(value proper hv).same_comm (value proper' hw)]
    exact clash_eq_false_iff.1 (free field member) v w hv hw
  · intro field member v w hv hw
    exact clash_eq_false_iff.1 (free field member) w v hw hv

/-- Some of the documents, in their order, are sound as well. -/
theorem Sound.sublist {c : Collection} (sound : c.Sound) {docs : List Record}
    (part : docs.Sublist c.documents) : Sound { c with documents := docs } where
  proper doc member := sound.proper doc (part.subset member)
  keyed doc member := sound.keyed doc (part.subset member)
  apart := sound.apart.sublist part
  complete doc member := sound.complete doc (part.subset member)

/-- A document is apart from all others, seen from both. -/
theorem Sound.apart_of_mem {c : Collection} (sound : c.Sound) {before after : List Record}
    {found : Record} (held : c.documents = before ++ found :: after) {d : Record}
    (other : d ∈ before ++ after) : Apart c.rules found d ∧ Apart c.rules d found := by
  have symmetric (a b : Record) : Apart c.rules a b ∧ Apart c.rules b a →
      Apart c.rules b a ∧ Apart c.rules a b := And.symm
  have apart := sound.apart
  rw [held] at apart
  exact (List.pairwise_cons.1 ((List.pairwise_middle (@symmetric)).1 apart)).1 d other

/-- Where keys are texts, no other document has a key that equals the one looked for. -/
theorem Sound.unequal_key {c : Collection} (sound : c.Sound) (texts : TextKeys c.documents)
    {before after : List Record} {found : Record} (held : c.documents = before ++ found :: after)
    {id : Json} (accepted : Filter.accepts found (keyFilter id) = true) {d : Record}
    (other : d ∈ before ++ after) : Filter.equal (d.get? documentKey) id = false := by
  have here : found ∈ c.documents := by simp [held]
  have there : d ∈ c.documents := by
    rw [List.mem_append] at other
    rw [held, List.mem_append, List.mem_cons]
    tauto
  have own := (texts.accepts_iff here id).1 accepted
  obtain ⟨k, key⟩ := texts d there
  by_contra equal
  rw [Bool.not_eq_false, key, equal_text_iff] at equal
  subst equal
  have clashing := (sound.apart_of_mem held other).1 documentKey List.mem_cons_self _ _
    (Record.held?_eq_some_iff.2 ⟨own, rfl⟩) (Record.held?_eq_some_iff.2 ⟨key, rfl⟩)
  exact absurd clashing (by simp [Json.same])

/-- A document that passes the check may stand anywhere beside the others. -/
theorem Sound.stand {c : Collection} {before after : List Record} {name : String} {doc : Record}
    (others : Sound { c with documents := before ++ after }) (proper : (Json.object doc).Proper)
    (keyed : doc.held? documentKey ≠ none) (passed : c.check name doc (before ++ after) = .ok ()) :
    Sound { c with documents := before ++ doc :: after } := by
  obtain ⟨complete, free⟩ := check_eq_ok_iff.1 passed
  have members {d : Record} (member : d ∈ before ++ doc :: after) :
      d = doc ∨ d ∈ before ++ after := by
    rw [List.mem_append, List.mem_cons] at member
    rw [List.mem_append]
    tauto
  refine ⟨?_, ?_, ?_, ?_⟩
  · intro d member
    rcases members member with rfl | member
    · exact proper
    · exact others.proper d member
  · intro d member
    rcases members member with rfl | member
    · exact keyed
    · exact others.keyed d member
  · have symmetric (a b : Record) : Apart c.rules a b ∧ Apart c.rules b a →
        Apart c.rules b a ∧ Apart c.rules a b := And.symm
    refine (List.pairwise_middle (@symmetric)).2 (List.pairwise_cons.2 ⟨?_, others.apart⟩)
    intro d member
    refine apart_of_clash proper (others.proper d member) ?_
    intro field there
    exact free field there d member
  · intro d member
    rcases members member with rfl | member
    · exact complete
    · exact others.complete d member

/-- Writing proper fields into a proper document leaves a proper document. -/
theorem proper_assignAll {doc fields : Record} (proper : (Json.object doc).Proper)
    (proper' : (Json.object fields).Proper) : (Json.object (assignAll doc fields)).Proper := by
  cases proper' with
  | object _ each =>
      clear * - proper each
      induction fields generalizing doc with
      | nil => exact proper
      | cons entry rest ih =>
          refine ih ?_ ?_
          · rw [assign]
            split
            · exact proper
            · exact proper.insert entry.1 (each entry List.mem_cons_self)
          · intro e member
            exact each e (List.mem_cons_of_mem _ member)

end Collection

/-! ### The writes of clients -/

/-- A write that a client asks the store for. -/
inductive StoreCall
  | create (name : String) (rules : CollectionRules)
  | insert (name : String) (doc : Record)
  | update (name : String) (filter : Filter) (fields : Record)
  | delete (name : String) (filter : Filter)

namespace StoreCall

/-- Asks a store for a write; of the result only a failure is kept. -/
def perform {m : Type → Type} [Monad m] (d : DocumentStore m) :
    StoreCall → ExceptT NativeError m Unit
  | .create name rules => d.createCollection name rules
  | .insert name doc => do
    let _ ← d.insertOne name doc
  | .update name filter fields => do
    let _ ← d.updateOne name filter fields
  | .delete name filter => do
    let _ ← d.deleteOne name filter

/-- Asks a store for writes one after another and tells how each of them ended. -/
def performAll {m : Type → Type} [Monad m] (d : DocumentStore m) (calls : List StoreCall) :
    m (List (Except NativeError Unit)) :=
  calls.mapM fun call => (call.perform d).run

/-- The document or the fields of a write are a proper value. -/
def Proper : StoreCall → Prop
  | .insert _ doc => (Json.object doc).Proper
  | .update _ _ fields => (Json.object fields).Proper
  | .create _ _ | .delete _ _ => True

/-- The collection that replaces the one with a name. -/
def Puts (s s' : MemoryStore) (name : String) (c : Collection) : Prop :=
  ∀ other, s'.collection other = if other = name then c else s.collection other

/-- All that a write can do to the collections: nothing if it fails.  One that succeeds adds an empty
collection with its rules, stands a document behind the others, puts a changed document in its place,
or removes a document; and where no document passes its filter it does nothing. -/
def Effect (s s' : MemoryStore) : StoreCall → Except NativeError Unit → Prop
  | _, .error _ => ∀ other, s'.collection other = s.collection other
  | .create name rules, .ok _ => s.documents name = [] ∧ Puts s s' name ⟨[], rules⟩
  | .insert name doc, .ok _ => ∃ stored : Record,
      (stored = doc ∨ ∃ key, stored = doc.insert documentKey (.string key)) ∧
      stored.held? documentKey ≠ none ∧
      (s.collection name).check name stored (s.documents name) = .ok () ∧
      Puts s s' name { s.collection name with documents := s.documents name ++ [stored] }
  | .update name _ fields, .ok _ => (∀ other, s'.collection other = s.collection other) ∨
      ∃ before found after, s.documents name = before ++ found :: after ∧
        (s.collection name).check name (Collection.assignAll found fields) (before ++ after) =
          .ok () ∧
        Puts s s' name { s.collection name with
          documents := before ++ Collection.assignAll found fields :: after }
  | .delete name _, .ok _ => (∀ other, s'.collection other = s.collection other) ∨
      ∃ before found after, s.documents name = before ++ found :: after ∧
        Puts s s' name { s.collection name with documents := before ++ after }

/-! ### One write -/

section OneWrite

variable (g : Setting) {w v : World}

/-- A result that is dropped leaves the state and whether there was a failure. -/
theorem run_dropped {α : Type} {x : ExceptT NativeError (StateM World) α}
    {r : Except NativeError α} (ran : x.run w = (r, v)) :
    ((do let _ ← x) : ExceptT NativeError (StateM World) Unit).run w = (r.map fun _ => (), v) := by
  change StateT.run (ExceptT.bindCont (fun _ => pure ()) (x.run w).1) (x.run w).2 = _
  rw [ran]
  cases r <;> rfl

variable {result : Except NativeError Unit}

theorem effect_create {name : String} {rules : CollectionRules}
    (run : ((create name rules).perform g.store).run w = (result, v)) :
    (create name rules).Effect w.store v.store result := by
  have created : ((create name rules).perform g.store).run w =
      ((w.store.create name rules).1, { w with store := (w.store.create name rules).2 }) := rfl
  rw [created, MemoryStore.create] at run
  cases held : Keyed.contains w.store name with
  | true =>
      rw [held] at run
      cases run
      intro other
      rfl
  | false =>
      rw [held] at run
      cases run
      have absent : Keyed.get? w.store name = none := by
        rwa [Keyed.contains, Option.isSome_eq_false_iff, Option.isNone_iff_eq_none] at held
      refine ⟨?_, fun other => MemoryStore.collection_put w.store name other _⟩
      rw [MemoryStore.documents, MemoryStore.collection, absent]
      rfl

/-- A document is stored as it is, or with a new key if it has none. -/
theorem supplyKey_effect {doc stored : Record} (supplied : supplyKey g.freshKey doc w = (stored, v)) :
    (stored = doc ∨ ∃ key, stored = doc.insert documentKey (.string key)) ∧
      stored.held? documentKey ≠ none ∧ ∃ issued, v = { w with issued } := by
  rw [supplyKey] at supplied
  cases held : doc.held? documentKey with
  | some key =>
      rw [held] at supplied
      cases supplied
      exact ⟨.inl rfl, by simp [held], w.issued, rfl⟩
  | none =>
      rw [held] at supplied
      cases supplied
      refine ⟨.inr ⟨_, rfl⟩, ?_, w.issued + 1, rfl⟩
      simp [Record.held?, Json.isNull]

/-- A document is given its key first, and then it is inserted. -/
theorem run_insertOne (name : String) {doc stored : Record} {u : World}
    (supplied : supplyKey g.freshKey doc w = (stored, u)) :
    (g.store.insertOne name doc).run w =
      ((u.store.insert name stored).1, { u with store := (u.store.insert name stored).2 }) := by
  change (((supplyKey g.freshKey doc w).2.store.insert name (supplyKey g.freshKey doc w).1).1,
    { (supplyKey g.freshKey doc w).2 with
      store := ((supplyKey g.freshKey doc w).2.store.insert name
        (supplyKey g.freshKey doc w).1).2 }) = _
  rw [supplied]

theorem effect_insert {name : String} {doc : Record}
    (run : ((insert name doc).perform g.store).run w = (result, v)) :
    (insert name doc).Effect w.store v.store result := by
  obtain ⟨stored, u, supplied⟩ : ∃ stored u, supplyKey g.freshKey doc w = (stored, u) := ⟨_, _, rfl⟩
  obtain ⟨shape, keyed, issued, rfl⟩ := supplyKey_effect g supplied
  have inserted := run_insertOne g name supplied
  cases outcome : w.store.insert name stored with
  | mk r store =>
      dsimp only at inserted
      rw [outcome] at inserted
      rw [perform, run_dropped inserted] at run
      have effect := MemoryStore.collection_insert outcome
      cases r with
      | error e =>
          cases run
          exact effect
      | ok doc' =>
          cases run
          obtain ⟨-, checked, put⟩ := effect
          exact ⟨stored, shape, keyed, checked, put⟩

theorem effect_update {name : String} {filter : Filter} {fields : Record}
    (run : ((update name filter fields).perform g.store).run w = (result, v)) :
    (update name filter fields).Effect w.store v.store result := by
  cases outcome : w.store.update name filter fields with
  | mk r store =>
      have updated : (g.store.updateOne name filter fields).run w = (r, { w with store }) := by
        change ((w.store.update name filter fields).1,
          { w with store := (w.store.update name filter fields).2 }) = _
        rw [outcome]
      rw [perform, run_dropped updated] at run
      have effect := MemoryStore.collection_update outcome
      cases r with
      | error e =>
          cases run
          intro other
          exact congrArg (MemoryStore.collection · other) effect
      | ok changed =>
          cases run
          cases changed with
          | none =>
              refine .inl ?_
              intro other
              exact congrArg (MemoryStore.collection · other) effect.1
          | some doc =>
              obtain ⟨before, found, after, held, -, -, rfl, checked, put⟩ := effect
              exact .inr ⟨before, found, after, held, checked, put⟩

theorem effect_delete {name : String} {filter : Filter}
    (run : ((delete name filter).perform g.store).run w = (result, v)) :
    (delete name filter).Effect w.store v.store result := by
  cases outcome : w.store.delete name filter with
  | mk removed store =>
      have deleted : (g.store.deleteOne name filter).run w = (.ok removed, { w with store }) := by
        change (Except.ok (w.store.delete name filter).1,
          { w with store := (w.store.delete name filter).2 }) = _
        rw [outcome]
      rw [perform, run_dropped deleted] at run
      cases run
      rcases MemoryStore.collection_delete outcome with ⟨-, same, -⟩ | ⟨-, before, found, after,
        held, -, -, put⟩
      · refine .inl ?_
        intro other
        exact congrArg (MemoryStore.collection · other) same
      · exact .inr ⟨before, found, after, held, put⟩

/-- **A write of a client has its effect.** -/
theorem effect_perform {call : StoreCall} (run : (call.perform g.store).run w = (result, v)) :
    call.Effect w.store v.store result := by
  cases call with
  | create name rules => exact effect_create g run
  | insert name doc => exact effect_insert g run
  | update name filter fields => exact effect_update g run
  | delete name filter => exact effect_delete g run

end OneWrite

/-! ### What writes keep -/

variable {s s' : MemoryStore} {call : StoreCall} {result : Except NativeError Unit}

/-- Where a sound collection replaces another, all stay sound. -/
theorem Puts.sound {name : String} {c : Collection} (put : Puts s s' name c)
    (sound : ∀ other, (s.collection other).Sound) (new : c.Sound) (other : String) :
    (s'.collection other).Sound := by
  rw [put other]
  split
  · exact new
  · exact sound other

/-- Documents without one of them are some of the documents. -/
theorem sublist_without {name : String} {before after : List Record} {found : Record}
    (held : s.documents name = before ++ found :: after) :
    (before ++ after).Sublist (s.collection name).documents := by
  have whole : (s.collection name).documents = before ++ found :: after := held
  rw [whole]
  exact (List.Sublist.refl before).append (List.sublist_cons_self found after)

/-- A write keeps all collections sound. -/
theorem Effect.sound (effect : call.Effect s s' result) (proper : call.Proper)
    (sound : ∀ name, (s.collection name).Sound) : ∀ name, (s'.collection name).Sound := by
  have unchanged (same : ∀ other, s'.collection other = s.collection other) :
      ∀ name, (s'.collection name).Sound := by
    intro name
    rw [same]
    exact sound name
  cases result with
  | error e => exact unchanged effect
  | ok _ =>
      cases call with
      | create name rules =>
          obtain ⟨-, put⟩ := effect
          exact put.sound sound ⟨by simp, by simp, .nil, by simp⟩
      | insert name doc =>
          obtain ⟨stored, shape, keyed, checked, put⟩ := effect
          have proper' : (Json.object stored).Proper := by
            rcases shape with rfl | ⟨key, rfl⟩
            · exact proper
            · exact Json.Proper.insert proper documentKey (.string key)
          have others : Collection.Sound { s.collection name with
              documents := (s.collection name).documents ++ [] } :=
            (sound name).sublist (by simp)
          have passed : (s.collection name).check name stored ((s.collection name).documents ++ []) =
              .ok () := by
            rw [List.append_nil]
            exact checked
          exact put.sound sound (others.stand proper' keyed passed)
      | update name filter fields =>
          rcases effect with same | ⟨before, found, after, held, checked, put⟩
          · exact unchanged same
          · have member : found ∈ (s.collection name).documents := by
              have there : found ∈ s.documents name := by simp [held]
              exact there
            have others := (sound name).sublist (sublist_without held)
            refine put.sound sound (others.stand ?_ ?_ checked)
            · exact Collection.proper_assignAll ((sound name).proper found member) proper
            · rw [Record.held?, Collection.get?_assignAll_key]
              exact (sound name).keyed found member
      | delete name filter =>
          rcases effect with same | ⟨before, found, after, held, put⟩
          · exact unchanged same
          · exact put.sound sound ((sound name).sublist (sublist_without held))

/-- The rules of a collection after a write: those that it was created with. -/
def declared : StoreCall → Except NativeError Unit → String → CollectionRules → CollectionRules
  | .create name rules, .ok _, other, before => if other = name then rules else before
  | _, _, _, before => before

/-- Only a new collection comes with other rules. -/
theorem Effect.rules (effect : call.Effect s s' result) (name : String) :
    (s'.collection name).rules = call.declared result name (s.collection name).rules := by
  have replaced {other : String} {docs : List Record}
      (put : Puts s s' other { s.collection other with documents := docs }) :
      (s'.collection name).rules = (s.collection name).rules := by
    rw [put name]
    split
    · next same => rw [same]
    · rfl
  cases result with
  | error e => cases call <;> exact congrArg Collection.rules (effect name)
  | ok _ =>
      cases call with
      | create other rules =>
          rw [effect.2 name, declared]
          split <;> rfl
      | insert other doc =>
          obtain ⟨_, -, -, -, put⟩ := effect
          exact replaced put
      | update other filter fields =>
          rcases effect with same | ⟨_, _, _, -, -, put⟩
          · exact congrArg Collection.rules (same name)
          · exact replaced put
      | delete other filter =>
          rcases effect with same | ⟨_, _, _, -, put⟩
          · exact congrArg Collection.rules (same name)
          · exact replaced put

/-- A write that fails leaves the documents of every collection as they are. -/
theorem Effect.failed {e : NativeError} (effect : call.Effect s s' (.error e)) (name : String) :
    s'.documents name = s.documents name :=
  congrArg Collection.documents (effect name)

/-- A change of fields leaves every document the key that it has. -/
theorem Effect.keys {name : String} {filter : Filter} {fields : Record}
    (effect : (update name filter fields).Effect s s' result) (other : String) :
    (s'.documents other).map (·.get? documentKey) = (s.documents other).map (·.get? documentKey) := by
  cases result with
  | error e => rw [effect.failed]
  | ok _ =>
      rcases effect with same | ⟨before, found, after, held, -, put⟩
      · rw [MemoryStore.documents, same]
        rfl
      · rw [MemoryStore.documents_replaced put]
        split
        · next same =>
          rw [same, held, List.map_append, List.map_cons, List.map_append, List.map_cons,
            Collection.get?_assignAll_key]
        · rfl

/-! ### Any number of writes -/

/-- Writes one after another keep all collections sound. -/
theorem sound_run (g : Setting) {calls : List StoreCall} (proper : ∀ call ∈ calls, call.Proper)
    {w v : World} {results : List (Except NativeError Unit)}
    (sound : ∀ name, (w.store.collection name).Sound)
    (run : (performAll g.store calls).run w = (results, v)) :
    ∀ name, (v.store.collection name).Sound := by
  induction calls generalizing w results with
  | nil =>
      cases run
      exact sound
  | cons call rest ih =>
      cases first : (call.perform g.store).run w with
      | mk result u =>
          cases others : (performAll g.store rest).run u with
          | mk more u' =>
              have step : (performAll g.store (call :: rest)).run w = (result :: more, u') := by
                rw [performAll, List.mapM_cons]
                change (match (call.perform g.store).run w with
                  | (result, u) => match (performAll g.store rest).run u with
                    | (more, u') => (result :: more, u')) = _
                rw [first]
                dsimp only
                rw [others]
              rw [step] at run
              cases run
              have here := (effect_perform g first).sound (proper call List.mem_cons_self) sound
              refine ih ?_ here others
              intro c member
              exact proper c (List.mem_cons_of_mem _ member)

end StoreCall

namespace Setting

open StoreCall

/-- **After any writes all collections are sound.**  Beginning with an empty store, whatever clients
ask for and whichever of their writes fail, every document has a key of its own, unique fields are
unique and required fields are present.  There a write that fails changes no document, a change of
fields changes no key, and the rules of a collection are those that it is created with. -/
theorem sound_performAll (g : Setting) {calls : List StoreCall}
    (proper : ∀ call ∈ calls, call.Proper) {w v : World} {results : List (Except NativeError Unit)}
    (empty : w.store = []) (run : (performAll g.store calls).run w = (results, v)) :
    (∀ name, (v.store.collection name).Sound) ∧
    ∀ (call : StoreCall) (result : Except NativeError Unit) (u : World),
      (call.perform g.store).run v = (result, u) →
        ((∃ e, result = .error e) → ∀ name, u.documents name = v.documents name) ∧
        (∀ name filter fields, call = .update name filter fields → ∀ other,
          (u.documents other).map (·.get? documentKey) =
            (v.documents other).map (·.get? documentKey)) ∧
        ∀ name, (u.store.collection name).rules =
          call.declared result name (v.store.collection name).rules := by
  constructor
  · refine sound_run g proper ?_ run
    intro name
    rw [empty]
    exact ⟨by simp [MemoryStore.collection, Collection.empty],
      by simp [MemoryStore.collection, Collection.empty], .nil,
      by simp [MemoryStore.collection, Collection.empty]⟩
  · intro call result u next
    have effect := effect_perform g next
    refine ⟨?_, ?_, effect.rules⟩
    · rintro ⟨e, rfl⟩
      exact effect.failed
    · rintro name filter fields rfl
      exact effect.keys

/-- Nothing is stored yet. -/
def nothingStored : World := { store := [], cache := [], issued := 0 }

/-- A person with an address. -/
def addressed (email : String) : Record := [("email", .string email)]

theorem proper_addressed (email : String) : (Json.object (addressed email)).Proper :=
  .single "email" (.string email)

/-- People with one address each; the second one is refused until the first one has moved. -/
def moving : List StoreCall :=
  [.create "people" ⟨["email"], ["email"]⟩, .insert "people" (addressed "a"),
    .insert "people" (addressed "a"), .update "people" (.object []) (addressed "b"),
    .insert "people" (addressed "a")]

theorem sound_moving : ∃ results v,
    (performAll tally.store moving).run nothingStored = (results, v) ∧
      results.map Except.isOk = [true, true, false, true, true] ∧
      (v.documents "people").length = 2 ∧ ∀ name, (v.store.collection name).Sound := by
  have proper : ∀ call ∈ moving, call.Proper := by
    intro call member
    simp only [moving, List.mem_cons, List.not_mem_nil, or_false] at member
    rcases member with rfl | rfl | rfl | rfl | rfl
    · trivial
    · exact proper_addressed "a"
    · exact proper_addressed "a"
    · exact proper_addressed "b"
    · exact proper_addressed "a"
  have ended : ((performAll tally.store moving).run nothingStored).1.map Except.isOk =
      [true, true, false, true, true] := by decide +kernel
  have stored : (((performAll tally.store moving).run nothingStored).2.documents "people").length =
      2 := by decide +kernel
  cases run : (performAll tally.store moving).run nothingStored with
  | mk results v =>
      rw [run] at ended stored
      exact ⟨results, v, rfl, ended, stored, (sound_performAll tally proper rfl run).1⟩

end Setting

end DataAccess
