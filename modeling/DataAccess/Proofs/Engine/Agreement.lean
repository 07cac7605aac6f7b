import DataAccess.Proofs.Engine.Reach
import DataAccess.Proofs.Engine.Uniqueness
/-
**The check of unique fields and the store agree.**  The check looks for a value with a filter: it
coerces the value to the type of its column, compares loosely, and asks the columns that the schema
flags.  The store compares what would be stored in all fields with a unique index.  What is the same is
loosely equal, the value is coerced alike, and the flags are the indexes; so a value that the check finds
free is free for the store.  Fields that a change does not mention were apart before, since the rules of
the collection hold.

Main definitions:

* `Setting.Matched` — a record that is checked and one that is written, stored alike.

Main results:

* `Setting.free_of_checkCandidates` — what a check finds free;
* `Setting.free_of_uniqueCheck` — no other document holds a value that was checked;
* `Setting.insert_free`, `Setting.update_free` — what is written after a check clashes with nothing;
* `Setting.Reachable.check_agrees` — **after a check that finds nothing taken, no write is refused as a
  duplicate**.
-/

set_option autoImplicit false

namespace DataAccess

namespace Setting

open DataAccess.Action DocumentDatasource

variable {g : Setting} {w v : World} {s : Schema} {table : String}

/-! ### The check -/

/-- A check that finds nothing taken changes nothing, and each candidate's value is free. -/
theorem free_of_checkCandidates {excluded : Option Json} {candidates : List (Column × Json)}
    (valid : runFrom (g.documents.checkCandidates s excluded candidates) w = (.ok .valid, v)) :
    v = w ∧ ∀ c x, (c, x) ∈ candidates → ∀ d ∈ w.documents s.table,
      (∀ id, excluded = some id → Filter.equal (d.get? documentKey) id = false) →
      (c.field ≠ "$and" ∧ c.field ≠ "$or") →
      Filter.equal (d.get? c.field) (coerceWrite c.type x .native) = false := by
  rw [runFrom_checkCandidates_find] at valid
  obtain ⟨verdict, rfl⟩ := Prod.mk.inj valid
  refine ⟨rfl, fun c x member d held others plain => ?_⟩
  cases found : candidates.find? (w.store.counts s.table excluded) with
  | some first => exact absurd verdict (by simp [found])
  | none =>
      have uncounted := List.find?_eq_none.1 found (c, x) member
      by_contra equal
      rw [Bool.not_eq_false] at equal
      exact uncounted ((MemoryStore.counts_iff plain).2 ⟨d, held, others, equal⟩)

/-- A record is checked that is stored as the one that is written: data and what validation makes of
them. -/
structure Matched (s : Schema) (checked written : Record) : Prop where
  distinct : (Keyed.keys written).Nodup
  columns : ∀ field ∈ Keyed.keys checked, ∃ c, s.column? field = some c
  alike : ∀ field, (written.get? field).map (s.storedForm field) =
    (checked.get? field).map (s.storedForm field)

theorem matched_of_valid {data record checked written : Record}
    (distinct : (Keyed.keys data).Nodup) (valid : s.validateData data = .ok record)
    (check : checked ∈ [data, record]) (write : written ∈ [data, record]) :
    Matched s checked written := by
  have keys := (Schema.validateData_eq_ok valid).1
  have forms := Schema.storedForm_of_valid valid
  simp only [List.mem_cons, List.not_mem_nil, or_false] at check write
  refine ⟨?_, ?_, ?_⟩
  · rcases write with rfl | rfl
    · exact distinct
    · rwa [keys]
  · intro field member
    refine Schema.exists_column valid ?_
    rcases check with rfl | rfl
    · rwa [keys]
    · exact member
  · intro field
    rcases check with rfl | rfl <;> rcases write with rfl | rfl
    · rfl
    · exact forms field
    · exact (forms field).symm
    · rfl

/-- What is stored of the written record is what was checked, without the key. -/
theorem Matched.get?_stored {checked written : Record} (matched : Matched s checked written)
    (field : String) : (s.toStored (written.swapErase documentKey)).get? field =
      if field = documentKey then none else (checked.get? field).map (s.storedForm field) := by
  rw [Schema.get?_toStored, Keyed.get?_swapErase matched.distinct]
  split
  · rfl
  · exact matched.alike field

/-- No document whose key is not excluded holds a value that was checked. -/
theorem free_of_uniqueCheck (showed : w.store.Showed table s) {excluded : Option Json}
    {checked : Record} (columns : ∀ field ∈ Keyed.keys checked, ∃ c, s.column? field = some c)
    (valid : runFrom (g.documents.uniqueCheck s checked excluded) w = (.ok .valid, v))
    {field : String} (unique : field ∈ (w.store.collection table).rules.unique)
    (other : field ≠ documentKey) {x y : Json}
    (stored : (checked.get? field).map (s.storedForm field) = some x) (filled : x.isNull = false)
    {d : Record} (member : d ∈ w.documents table) (held : d.held? field = some y)
    (plain : field ≠ "$and" ∧ field ≠ "$or")
    (others : ∀ id, excluded = some id → Filter.equal (d.get? documentKey) id = false) :
    y.same x = false := by
  obtain ⟨u, got, form⟩ := Option.map_eq_some_iff.1 stored
  obtain ⟨c, column⟩ := columns field (Keyed.mem_keys (Keyed.mem_of_get? got))
  obtain ⟨-, declared, sample, -, rfl⟩ := showed
  have named : c.field = field := by simpa using List.find?_some column
  have listed := List.mem_of_find?_eq_some column
  -- the column is flagged, since its field has a unique index
  have flag : c.uniqueKey = true := by
    rw [flagged_inferColumns _ sample c listed (named ▸ other), named]
    exact List.contains_iff_mem.2 unique
  have written : coerceWrite c.type u .native = x := by
    rw [← form, Schema.storedForm, column]
  have present : u.isNull = false := by
    rw [← isNull_coerceWrite c.type u .native, written, filled]
  subst named
  have free := (free_of_checkCandidates valid).2 c u
    (Schema.mem_uniqueCandidates_iff.2 ⟨listed, .inl flag, got, present⟩) d member others plain
  obtain ⟨found, held⟩ := Record.held?_eq_some_iff.1 held
  rw [written, found] at free
  by_contra same
  rw [Bool.not_eq_false] at same
  exact absurd (equal_of_same held same) (by simp [free])

/-! ### The writes -/

section Writes

variable {checked written : Record} (showed : w.store.Showed table s)
  (matched : Matched s checked written) (plain : PlainFields (w.documents table))

include showed matched plain

/-- A new record that was checked clashes with no document, if its key is new. -/
theorem insert_free
    (valid : runFrom (g.documents.uniqueCheck s checked none) w = (.ok .valid, v)) {key : String}
    (fresh : ∀ doc ∈ w.documents table, doc.get? documentKey ≠ some (.string key)) :
    ∀ field ∈ documentKey :: (w.store.collection table).rules.unique, ∀ d ∈ w.documents table,
      Collection.clash (Keyed.insert (s.toStored (written.swapErase documentKey)) documentKey
        (.string key)) d field = false := by
  intro field member d held
  refine Collection.clash_eq_false_iff.2 fun x y new there => ?_
  obtain ⟨new, filled⟩ := Record.held?_eq_some_iff.1 new
  by_cases own : field = documentKey
  · subst own
    rw [Keyed.get?_insert_self] at new
    obtain rfl := Option.some.inj new
    by_contra same
    rw [Bool.not_eq_false] at same
    refine fresh d held ?_
    rw [← same_text same]
    exact (Record.held?_eq_some_iff.1 there).1
  · rw [Keyed.get?_insert_of_ne own, matched.get?_stored, if_neg own] at new
    exact free_of_uniqueCheck showed matched.columns valid ((List.mem_cons.1 member).resolve_left own)
      own new filled held there (plain.plain held there) (by simp)

/-- **A new record that was checked is not refused as a duplicate.** -/
theorem createOne_agrees
    (fresh : ∀ doc ∈ w.documents table, doc.get? documentKey ≠ some (.string (g.key w.issued)))
    (valid : runFrom (g.documents.uniqueCheck s checked none) w = (.ok .valid, v)) :
    (runFrom (g.documents.createOne s written) w).1 ≠ .error .duplicateRecord := by
  have free := insert_free showed matched plain valid fresh
  rw [g.runFrom_createOne showed.isInferred matched.distinct]
  rcases inserted : w.store.insert table _ with ⟨e | stored, store⟩
  · intro failed
    exact Collection.check_free free (MemoryStore.insert_refused inserted) (Except.error.inj failed)
  · exact s.shapeRow_ne_duplicate stored

/-- A change that was checked clashes with no other document: the fields that it mentions were checked,
and in all others the document was apart from them before. -/
theorem update_free (sound : (w.store.collection table).Sound)
    (texts : TextKeys (w.documents table)) {id : Json}
    (valid : runFrom (g.documents.uniqueCheck s checked (some id)) w = (.ok .valid, v))
    {before after : List Record} {found : Record}
    (held : w.documents table = before ++ found :: after)
    (accepted : Filter.accepts found (keyFilter id) = true) :
    ∀ field ∈ documentKey :: (w.store.collection table).rules.unique, ∀ d ∈ before ++ after,
      Collection.clash (Collection.assignAll found
        (s.toStored (written.swapErase documentKey))) d field = false := by
  intro field member d other
  refine Collection.clash_eq_false_iff.2 fun x y new there => ?_
  obtain ⟨-, apart⟩ := sound.apart_of_mem held other
  obtain ⟨new, filled⟩ := Record.held?_eq_some_iff.1 new
  have kept (old : found.get? field = some x) : y.same x = false :=
    apart field member y x there (Record.held?_eq_some_iff.2 ⟨old, filled⟩)
  by_cases own : field = documentKey
  · subst own
    rw [Collection.get?_assignAll_key] at new
    exact kept new
  · have distinct : (Keyed.keys (s.toStored (written.swapErase documentKey))).Nodup := by
      rw [Schema.toStored_keys]
      exact Keyed.nodup_keys_swapErase matched.distinct documentKey
    rw [Collection.get?_assignAll found distinct, if_neg own, matched.get?_stored, if_neg own] at new
    cases mentioned : (checked.get? field).map (s.storedForm field) with
    | none =>
        rw [mentioned, Option.none_or] at new
        exact kept new
    | some x' =>
        rw [mentioned, Option.some_or] at new
        have inTable : d ∈ w.documents table := (StoreCall.sublist_without held).subset other
        refine free_of_uniqueCheck showed matched.columns valid
          ((List.mem_cons.1 member).resolve_left own) own (mentioned.trans new) filled inTable there
          (plain.plain inTable there) ?_
        rintro _ ⟨⟩
        exact sound.unequal_key texts held accepted other

/-- **A change that was checked is not refused as a duplicate.** -/
theorem updateOne_agrees (sound : (w.store.collection table).Sound)
    (texts : TextKeys (w.documents table)) (id : Json)
    (valid : runFrom (g.documents.uniqueCheck s checked (some id)) w = (.ok .valid, v)) :
    (runFrom (g.documents.updateOne s id written) w).1 ≠ .error .duplicateRecord := by
  have changing : runFrom (ask (g.documents.store.updateOne table (keyFilter id)
      (s.toStored (written.swapErase documentKey)))) w = _ := g.runFrom_updateOne table _ _ w
  rw [g.runFrom_updateOne_fields showed.isInferred, changing]
  split
  · simp
  · rcases updated : w.store.update table (keyFilter id) _ with ⟨e | none | doc, store⟩
    · obtain ⟨before, found, after, held, accepted, refused⟩ := MemoryStore.update_refused updated
      intro failed
      exact Collection.check_free
        (update_free showed matched plain sound texts valid held accepted) refused
        (Except.error.inj failed)
    · intro failed
      cases failed
    · exact s.shapeRow_ne_duplicate doc

end Writes

/-- **The check of unique fields and the store agree while nothing interleaves.**  Whatever an engine and
the other clients of its store did before: for a table whose keys are texts and whose fields do not
start with a dollar sign, under the schema that its documents show, and with data that validation
accepts, a check that finds nothing taken is not followed by a refusal as a duplicate.  That holds of
new records, whose keys are new, and of changes, the changed document excluded from the check; and it
does not matter whether the data or what validation makes of them are checked and written. -/
theorem Reachable.check_agrees {g : Setting} {w : World} (reachable : g.Reachable w)
    {table : String} {s : Schema} (inferred : g.inferredSchema w table = some s)
    (texts : TextKeys (w.documents table)) (plain : PlainFields (w.documents table))
    (data record checked written : Record) (distinct : (Keyed.keys data).Nodup)
    (check : checked ∈ [data, record]) (write : written ∈ [data, record]) :
    (s.validateRequired data = .ok record →
      (∀ doc ∈ w.documents table, doc.get? documentKey ≠ some (.string (g.key w.issued))) →
      ∀ v, runFrom (g.documents.uniqueCheck s checked none) w = (.ok .valid, v) →
        (runFrom (g.documents.createOne s written) v).1 ≠ .error .duplicateRecord) ∧
    (s.validateData data = .ok record →
      ∀ id v, runFrom (g.documents.uniqueCheck s checked (some id)) w = (.ok .valid, v) →
        (runFrom (g.documents.updateOne s id written) v).1 ≠ .error .duplicateRecord) := by
  have orderly := reachable.orderly
  have showed := orderly.showed inferred
  constructor
  · intro accepted fresh v valid
    obtain ⟨rfl, -⟩ := free_of_checkCandidates valid
    have matched := matched_of_valid distinct (Schema.validateRequired_eq_ok accepted) check write
    exact createOne_agrees showed matched plain fresh valid
  · intro accepted id v valid
    obtain ⟨rfl, -⟩ := free_of_checkCandidates valid
    have matched := matched_of_valid distinct accepted check write
    exact updateOne_agrees showed matched plain (orderly.sound table) texts id valid

/-- People whose addresses are unique: one was stored by another client, one by the engine. -/
def twoPeople : World :=
  (runFrom (tally.engine.perform (.createOne "people" (addressed "b")))
    (((StoreCall.insert "people" (addressed "a")).perform tally.store).run
      (((StoreCall.create "people" ⟨["email"], ["email"]⟩).perform tally.store).run
        nothingStored).2).2).2

/-- The columns that people show. -/
def peopleSchema : Schema := .inferred "people" ["email"] [] [addressed "a"]

theorem check_agrees_twoPeople :
    tally.Reachable twoPeople ∧
    tally.inferredSchema twoPeople "people" = some peopleSchema ∧
    (∃ v, runFrom (tally.documents.uniqueCheck peopleSchema (addressed "c") none) twoPeople =
        (.ok .valid, v) ∧
      (runFrom (tally.documents.createOne peopleSchema (addressed "c")) v).1 ≠
        .error .duplicateRecord) ∧
    ∃ v, runFrom (tally.documents.uniqueCheck peopleSchema (addressed "a") (some (.string "k")))
        twoPeople = (.ok .valid, v) ∧
      (runFrom (tally.documents.updateOne peopleSchema (.string "k") (addressed "a")) v).1 ≠
        .error .duplicateRecord := by
  have reachable : tally.Reachable twoPeople :=
    .perform 0 tally.now (.createOne "people" (addressed "b"))
      (.write (.insert "people" (addressed "a"))
        (.write (.create "people" ⟨["email"], ["email"]⟩) (.start 0) trivial)
        (proper_addressed "a"))
      (proper_addressed "b")
  have inferred : tally.inferredSchema twoPeople "people" = some peopleSchema := by decide +kernel
  have documents : twoPeople.documents "people" =
      [[("email", .string "a"), ("_id", .string "k")],
        [("email", .string "b"), ("_id", .string "kk")]] := rfl
  have texts : TextKeys (twoPeople.documents "people") := by
    rw [documents]
    intro doc member
    simp only [List.mem_cons, List.not_mem_nil, or_false] at member
    rcases member with rfl | rfl
    · exact ⟨"k", rfl⟩
    · exact ⟨"kk", rfl⟩
  have plain : PlainFields (twoPeople.documents "people") := by
    rw [documents]
    intro doc member field held
    simp only [List.mem_cons, List.not_mem_nil, or_false] at member
    rcases member with rfl | rfl <;>
      simp only [Keyed.keys_cons, Keyed.keys_nil, List.mem_cons, List.not_mem_nil, or_false] at held <;>
      rcases held with rfl | rfl <;> decide
  have fresh : ∀ doc ∈ twoPeople.documents "people",
      doc.get? documentKey ≠ some (.string (tally.key twoPeople.issued)) := by
    have next : tally.key twoPeople.issued = "kkk" := rfl
    rw [documents, next]
    intro doc member
    simp only [List.mem_cons, List.not_mem_nil, or_false] at member
    rcases member with rfl | rfl <;> simp [documentKey]
  have agrees (email : String) := reachable.check_agrees inferred texts plain (addressed email)
    (addressed email) (addressed email) (addressed email) (by simp [addressed])
    List.mem_cons_self List.mem_cons_self
  refine ⟨reachable, inferred, ?_, ?_⟩
  · obtain ⟨verdict, v, check, valid⟩ : ∃ verdict v, Returns (tally.documents.uniqueCheck
        peopleSchema (addressed "c") none) twoPeople verdict v ∧ decide (verdict = .valid) = true :=
      exists_returns (by decide +kernel)
    obtain rfl := of_decide_eq_true valid
    exact ⟨v, check, (agrees "c").1 (by rfl) fresh v check⟩
  · obtain ⟨verdict, v, check, valid⟩ : ∃ verdict v, Returns (tally.documents.uniqueCheck
        peopleSchema (addressed "a") (some (.string "k"))) twoPeople verdict v ∧
          decide (verdict = .valid) = true :=
      exists_returns (by decide +kernel)
    obtain rfl := of_decide_eq_true valid
    exact ⟨v, check, (agrees "a").2 (by rfl) (.string "k") v check⟩

end Setting

end DataAccess
