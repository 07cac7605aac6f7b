import DataAccess.Document.Datasource
import DataAccess.Document.Server
import DataAccess.Proofs.Outcome
/-
**Keys on a server.**  A document is sent with its key as it is written, while a filter on the key sends
every text of 24 hexadecimal digits, however deep in the operand, as an object identifier.  So a key is
looked for as it was stored exactly when no such text stands in it.

Main definitions:

* `Text.IsHexDigit`, `ObjectId.Spelled` — the texts that denote object identifiers;
* `Json.texts` — the texts that stand in a value;
* `ScriptedServer.alone`, `Sends` — the commands that an operation sends, whatever is replied;
* `LooksWith` — the operations that look for documents send a certain filter.

Main results:

* `ObjectId.ofText?_eq_none_iff` — a text denotes an object identifier exactly when it spells one;
* `Bson.keyOperand_eq_iff` — **the two forms of a value agree exactly when it spells no identifier**;
* `sends_insertOne`, `looksWith_database` — what the operations of a store send;
* `ScriptedServer.key_addressed_iff` — **a document is looked for under the key that it was stored under
  exactly when the key spells no identifier**.
-/

set_option autoImplicit false

namespace DataAccess

/-! ### Texts that denote object identifiers -/

/-- A hexadecimal digit, in either case. -/
def Text.IsHexDigit (c : Char) : Prop :=
  ('0' ≤ c ∧ c ≤ '9') ∨ ('a' ≤ c ∧ c ≤ 'f') ∨ ('A' ≤ c ∧ c ≤ 'F')

instance (c : Char) : Decidable (Text.IsHexDigit c) :=
  inferInstanceAs (Decidable (_ ∨ _ ∨ _))

theorem Text.hexValue?_eq_none_iff {c : Char} : hexValue? c = none ↔ ¬ IsHexDigit c := by
  unfold hexValue? IsHexDigit
  simp only [Bool.and_eq_true, decide_eq_true_eq]
  split
  · next digit => simp [digit]
  · next other =>
    split
    · next lower => simp [lower]
    · next other' =>
      split
      · next upper => simp [upper]
      · next other'' => simp only [other, other', other'', or_self, not_false_eq_true]

theorem Text.lowerHex?_eq_none_iff {s : List Char} :
    lowerHex? s = none ↔ ∃ c ∈ s, ¬ IsHexDigit c := by
  induction s with
  | nil => simp [lowerHex?]
  | cons c rest ih =>
      rw [List.exists_mem_cons_iff, ← ih, ← hexValue?_eq_none_iff, lowerHex?]
      cases hexValue? c with
      | none => simp
      | some n => cases lowerHex? rest <;> simp

/-- A text that spells an object identifier. -/
def ObjectId.Spelled (s : String) : Prop := s.length = 24 ∧ ∀ c ∈ s.toList, Text.IsHexDigit c

instance (s : String) : Decidable (ObjectId.Spelled s) := inferInstanceAs (Decidable (_ ∧ _))

theorem ObjectId.ofText?_eq_none_iff {s : String} : ofText? s = none ↔ ¬ Spelled s := by
  unfold ofText? Spelled
  split
  · next length =>
    rw [Option.map_eq_none_iff, Text.lowerHex?_eq_none_iff]
    simp [length]
  · next other => simp [other]

/-! ### The two forms of a value -/

namespace Json

mutual

/-- The texts that stand in a value, at any depth. -/
def texts : Json → List String
  | .null | .bool _ | .number _ => []
  | .string s => [s]
  | .array items => itemTexts items
  | .object fields => fieldTexts fields

/-- The texts that stand in the items of an array. -/
def itemTexts : List Json → List String
  | [] => []
  | v :: rest => texts v ++ itemTexts rest

/-- The texts that stand in the entries of an object; their names do not count. -/
def fieldTexts : List (String × Json) → List String
  | [] => []
  | (_, v) :: rest => texts v ++ fieldTexts rest

end

end Json

namespace Bson

mutual

/-- **The two forms of a value agree exactly when no text in it spells an object identifier.** -/
theorem keyOperand_eq_iff :
    ∀ v : Json, keyOperand v = ofJson v ↔ ∀ t ∈ v.texts, ¬ ObjectId.Spelled t
  | .null => by simp [keyOperand, ofJson, Json.texts]
  | .bool b => by simp [keyOperand, ofJson, Json.texts]
  | .number n => by simp [keyOperand, ofJson, Json.texts]
  | .string s => by
    rw [keyOperand, ofJson, Json.texts, List.forall_mem_singleton, ← ObjectId.ofText?_eq_none_iff]
    cases ObjectId.ofText? s <;> simp
  | .array items => by
    rw [keyOperand, ofJson, Json.texts, Bson.array.injEq]
    exact keyItems_eq_iff items
  | .object fields => by
    rw [keyOperand, ofJson, Json.texts, Bson.document.injEq]
    exact keyFields_eq_iff fields

/-- The same for the items of an array. -/
theorem keyItems_eq_iff : ∀ items : List Json,
    keyItems items = ofItems items ↔ ∀ t ∈ Json.itemTexts items, ¬ ObjectId.Spelled t
  | [] => by simp [keyItems, ofItems, Json.itemTexts]
  | v :: rest => by
    rw [keyItems, ofItems, Json.itemTexts, List.cons.injEq, List.forall_mem_append,
      keyOperand_eq_iff v, keyItems_eq_iff rest]

/-- The same for the entries of an object. -/
theorem keyFields_eq_iff : ∀ fields : List (String × Json),
    keyFields fields = ofFields fields ↔ ∀ t ∈ Json.fieldTexts fields, ¬ ObjectId.Spelled t
  | [] => by simp [keyFields, ofFields, Json.fieldTexts]
  | (key, v) :: rest => by
    rw [keyFields, ofFields, Json.fieldTexts, List.cons.injEq, Prod.mk.injEq,
      List.forall_mem_append, keyOperand_eq_iff v, keyFields_eq_iff rest]
    simp

end

/-- A document is sent with the values of its fields. -/
theorem get?_ofFields (fields : Record) (key : String) :
    Keyed.get? (ofFields fields) key = (fields.get? key).map ofJson := by
  induction fields with
  | nil => simp [ofFields]
  | cons entry rest ih =>
      obtain ⟨k, v⟩ := entry
      rw [ofFields, Keyed.get?_cons, Keyed.get?_cons, ih]
      split <;> rfl

theorem keyItems_append (before after : List Json) :
    keyItems (before ++ after) = keyItems before ++ keyItems after := by
  induction before with
  | nil => simp [keyItems]
  | cons v rest ih => rw [List.cons_append, keyItems, keyItems, ih, List.cons_append]

theorem length_keyItems (items : List Json) : (keyItems items).length = items.length := by
  induction items with
  | nil => simp [keyItems]
  | cons v rest ih => rw [keyItems, List.length_cons, List.length_cons, ih]

end Bson

/-! ### What is sent -/

/-- A server on its own. -/
def ScriptedServer.alone (freshKey : String) : DatabaseServer (StateM ScriptedServer) :=
  ScriptedServer.inState id (fun s _ => s) freshKey

/-- An operation sends these commands, whatever is replied. -/
def Sends {α : Type} (x : ExceptT NativeError (StateM ScriptedServer) α)
    (commands : List (String × StoreCommand)) : Prop :=
  ∀ w : ScriptedServer, (x.run w).2.sent = w.sent ++ commands

section Sending

variable {α β : Type} {x : ExceptT NativeError (StateM ScriptedServer) α}
  {commands : List (String × StoreCommand)}

theorem sends_pure (a : α) : Sends (pure a) [] := fun w => (List.append_nil w.sent).symm

/-- A question is one command, whatever is taken from the reply. -/
theorem sends_ask (freshKey database : String) (c : StoreCommand)
    (result : CommandReply → Except NativeError α) :
    Sends ((ScriptedServer.alone freshKey).ask database c result) [(database, c)] :=
  fun w => w.exchange_sent database c

/-- What comes after the last command sends nothing more. -/
theorem Sends.bind_quiet (first : Sends x commands)
    {f : α → ExceptT NativeError (StateM ScriptedServer) β} (quiet : ∀ a, Sends (f a) []) :
    Sends (x >>= f) commands := by
  intro w
  change (match x.run w with
    | (result, v) => StateT.run (ExceptT.bindCont f result) v).2.sent = _
  rw [← first w]
  rcases x.run w with ⟨_ | a, v⟩
  · rfl
  · exact (quiet a v).trans (List.append_nil _)

end Sending

/-- The operations that look for documents with one filter send another one to the server. -/
structure LooksWith (store : DocumentStore (StateM ScriptedServer)) (database name : String)
    (filter : Filter) (sent : BsonDocument) : Prop where
  /-- A page that begins beyond the greatest count is refused before anything is sent. -/
  find : ∀ read : StoreRead, read.skip ≤ StoreCommand.greatestCount →
    Sends (store.find name filter read) [(database, .find name sent read)]
  count : Sends (store.count name filter) [(database, .count name sent)]
  update : ∀ fields : Record, ∃ set,
    Sends (store.updateOne name filter fields) [(database, .update name sent set)]
  delete : Sends (store.deleteOne name filter) [(database, .delete name sent)]

section Operations

variable (freshKey database name : String)

/-- Every operation sends the filter in the form for the server. -/
theorem looksWith_database (filter : Filter) :
    LooksWith ((ScriptedServer.alone freshKey).database database) database name filter
      (Bson.ofFilter filter) where
  find read inRange := by
    have notRefused : ¬ StoreCommand.greatestCount < read.skip := Nat.not_lt.2 inRange
    change Sends (DatabaseServer.find _ database name filter read) _
    rw [DatabaseServer.find, if_neg notRefused]
    exact (sends_ask freshKey database _ _).bind_quiet fun found => sends_pure _
  count := sends_ask freshKey database _ _
  update fields := ⟨_, (sends_ask freshKey database _ _).bind_quiet fun found => sends_pure _⟩
  delete := sends_ask freshKey database _ _

/-- A document with a key is sent as it is. -/
theorem sends_insertOne {doc : Record} {k : Json} (given : doc.get? documentKey = some k)
    (present : k.isNull = false) :
    Sends (((ScriptedServer.alone freshKey).database database).insertOne name doc)
      [(database, .insert name (Bson.ofFields doc))] := by
  have own : supplyKey (ScriptedServer.alone freshKey).freshKey doc = pure doc := by
    simp [supplyKey, Record.held?, given, present]
  change Sends (ExceptT.lift (supplyKey (ScriptedServer.alone freshKey).freshKey doc) >>= _) _
  rw [own]
  exact (sends_ask freshKey database _ _).bind_quiet fun written => sends_pure _

end Operations

/-! ### Keys -/

/-- The filter that asks for documents whose key is in a list. -/
def keysFilter (keys : List Json) : Filter :=
  .object [(documentKey, .object [("$in", .array keys)])]

/-- The filter that compares the key with an operand, as it is sent. -/
def Bson.askedKey (operator : String) (operand : Bson) : BsonDocument :=
  [(documentKey, .document [(operator, operand)])]

theorem Bson.ofFilter_keyFilter (k : Json) :
    ofFilter (keyFilter k) = askedKey "$eq" (keyOperand k) := by
  simp [keyFilter, ofFilter, ofConditions, documentKey, keyOperand, keyFields, askedKey]

theorem Bson.ofFilter_keysFilter (keys : List Json) :
    ofFilter (keysFilter keys) = askedKey "$in" (.array (keyItems keys)) := by
  simp [keysFilter, ofFilter, ofConditions, documentKey, keyOperand, keyFields, askedKey]

/-- **A document is looked for under the key that it was stored under exactly when no text in the key
spells an object identifier.**  The document is inserted with its key in one form, and each operation
that looks for the key, alone or in a list of keys, sends one and the same form of it. -/
theorem ScriptedServer.key_addressed_iff (freshKey database name : String) {doc : Record} {k : Json}
    (given : doc.get? documentKey = some k) (present : k.isNull = false) :
    let store := (alone freshKey).database database
    ∃ (stored : BsonDocument) (written sought : Bson),
      Sends (store.insertOne name doc) [(database, .insert name stored)] ∧
      Keyed.get? stored documentKey = some written ∧
      LooksWith store database name (keyFilter k) (Bson.askedKey "$eq" sought) ∧
      (∀ before after : List Json, ∃ others more, others.length = before.length ∧
        LooksWith store database name (keysFilter (before ++ k :: after))
          (Bson.askedKey "$in" (.array (others ++ sought :: more)))) ∧
      (written = sought ↔ ∀ t ∈ k.texts, ¬ ObjectId.Spelled t) := by
  refine ⟨Bson.ofFields doc, Bson.ofJson k, Bson.keyOperand k,
    sends_insertOne freshKey database name given present, ?_, ?_, fun before after => ?_, ?_⟩
  · rw [Bson.get?_ofFields, given]
    rfl
  · rw [← Bson.ofFilter_keyFilter]
    exact looksWith_database freshKey database name _
  · refine ⟨Bson.keyItems before, Bson.keyItems after, Bson.length_keyItems before, ?_⟩
    have listed := Bson.keyItems_append before (k :: after)
    rw [Bson.keyItems] at listed
    rw [← listed, ← Bson.ofFilter_keysFilter]
    exact looksWith_database freshKey database name _
  · rw [eq_comm]
    exact Bson.keyOperand_eq_iff k

/-- The key of a lot: its numbers, and its site. -/
def lotKey : Json :=
  .object [("lot", .array [.int 7, .string "65a1f0c2e4b0"]), ("site", .string "north")]

/-- A lot is looked for under its key. -/
theorem ScriptedServer.key_addressed_lot :
    Keyed.get? [("_id", lotKey)] documentKey = some lotKey ∧ lotKey.isNull = false ∧
    let store := (alone "k").database "app"
    ∃ (stored : BsonDocument) (key : Bson),
      Sends (store.insertOne "lots" [("_id", lotKey)]) [("app", .insert "lots" stored)] ∧
      Keyed.get? stored documentKey = some key ∧
      LooksWith store "app" "lots" (keyFilter lotKey) (Bson.askedKey "$eq" key) := by
  have given : Keyed.get? [("_id", lotKey)] documentKey = some lotKey := rfl
  have plain : ∀ t ∈ lotKey.texts, ¬ ObjectId.Spelled t := by decide +kernel
  obtain ⟨stored, written, sought, inserts, held, looks, -, same⟩ :=
    key_addressed_iff "k" "app" "lots" given rfl
  obtain rfl := same.2 plain
  exact ⟨given, rfl, stored, written, inserts, held, looks⟩

/-- The text of 24 hexadecimal digits that is Ada's key. -/
def adaKey : String := "65a1f0c2e4b0a1b2c3d4e5f6"

/-- Ada is stored under a text and looked for under an object identifier. -/
theorem ScriptedServer.key_lost_ada :
    let store := (alone "k").database "app"
    Sends (store.insertOne "users" [("_id", .string adaKey), ("name", .string "Ada")])
      [("app", .insert "users" [("_id", .string adaKey), ("name", .string "Ada")])] ∧
    Sends (store.deleteOne "users" (keyFilter (.string adaKey)))
      [("app", .delete "users" [("_id", .document [("$eq", .objectId adaKey)])])] := by
  constructor
  · have given : Keyed.get? [("_id", Json.string adaKey), ("name", .string "Ada")] documentKey =
        some (.string adaKey) := rfl
    have inserts := sends_insertOne "k" "app" "users" given rfl
    simpa [Bson.ofFields, Bson.ofJson] using inserts
  · have spelled : ObjectId.ofText? adaKey = some adaKey := by decide +kernel
    have deletes := (looksWith_database "k" "app" "users" (keyFilter (.string adaKey))).delete
    rw [Bson.ofFilter_keyFilter, Bson.keyOperand, spelled] at deletes
    exact deletes

end DataAccess
