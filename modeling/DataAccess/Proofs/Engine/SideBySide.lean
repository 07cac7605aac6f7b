import Mathlib.Data.List.Basic
import DataAccess.Proofs.Engine.Guarded
import DataAccess.Proofs.Engine.Stepwise
/-
**Updates side by side.**  Several clients update the document with one key, and the steps of their
calls interleave in any order.  Each writes its fields into the document as it is then, whatever it read
before.  So as long as no two of them write the same field, the document holds the fields of all of them
in the end, and nothing else has changed.  The key is never written, not even if a call gives one.

Main definitions:

* `Gathered` — what the updates of some clients came to;
* `Setting.updating`, `Setting.changing` — clients that update the document with one key.

Main results:

* `Change.Applies.eq_of_held` — an update finds the document that the others left;
* `Gathered.next`, `exists_gathered` — one more update, and all updates in some order;
* `Setting.no_update_lost` — **the fields of all updates are held in the end, except the key**;
* `Setting.key_not_written` — a key among the fields is accepted and not written.
-/

set_option autoImplicit false

namespace DataAccess

open Setting

variable {ι : Type} {table key : String} {changes : ι → Change}

/-- The clients `done` updated the document `found`, which is `doc` now, and nothing else changed. -/
structure Gathered (table key : String) (changes : ι → Change) (v u : MemoryStore) (done : List ι)
    (found doc : Record) (before after : List Record) : Prop where
  exchanged : Exchanged v.world u.world table (.string key) found doc before after
  keyed : doc.get? documentKey = found.get? documentKey
  written : ∀ i ∈ done, ∀ field value, field ≠ documentKey →
    (changes i).record.get? field = some value →
      doc.get? field = some ((changes i).schema.storedForm field value)
  others : ∀ field, (∀ i ∈ done, (changes i).record.get? field = none) →
    doc.get? field = found.get? field

section Merging

variable {v u x : MemoryStore} {found doc : Record} {before after : List Record} {done : List ι}
  {fields : Record}

/-- An update finds the one document with the key. -/
theorem Change.Applies.eq_of_held {c : Change} (applies : c.Applies table key fields u x)
    (held : u.documents table = before ++ doc :: after)
    (others : ∀ d ∈ before ++ after, d.get? documentKey ≠ some (.string key)) :
    Exchanged u.world x.world table (.string key) doc (c.apply doc) before after := by
  obtain ⟨found, before', after', exchanged⟩ := applies.written
  have apart : found ∉ before ++ after := fun member => others found member exchanged.key
  rw [List.mem_append, not_or] at apart
  have same : before ++ doc :: after = before' ++ found :: after' :=
    held.symm.trans exchanged.held
  obtain ⟨rfl, rfl, rfl⟩ := (List.append_cons_inj_of_notMem apart.1 apart.2).1 same
  exact exchanged

/-- Before any update. -/
theorem gathered_nil {c : Change} (applies : c.Applies table key fields v u) :
    ∃ found before after, Gathered table key changes v v [] found found before after := by
  obtain ⟨found, before, after, exchanged⟩ := applies.written
  refine ⟨found, before, after, ⟨exchanged.held, exchanged.key, exchanged.others, fun name => ?_⟩, rfl,
    by simp, fun _ _ => rfl⟩
  split
  · next here =>
      rw [here]
      exact exchanged.held
  · rfl

/-- One more update, of other fields. -/
theorem Gathered.next (gathered : Gathered table key changes v u done found doc before after) {i : ι}
    (applies : (changes i).Applies table key fields u x) (distinct : (Keyed.keys fields).Nodup)
    (apart : ∀ j ∈ done, ∀ field, (changes j).record.get? field ≠ none →
      (changes i).record.get? field = none) :
    Gathered table key changes v x (done ++ [i]) found ((changes i).apply doc) before after := by
  have held : u.documents table = before ++ doc :: after :=
    (gathered.exchanged.documents table).trans (if_pos rfl)
  have exchanged := applies.eq_of_held held gathered.exchanged.others
  have applied := applies.get?_apply distinct doc
  refine ⟨⟨gathered.exchanged.held, gathered.exchanged.key, gathered.exchanged.others, ?_⟩, ?_, ?_, ?_⟩
  · intro name
    have here := exchanged.documents name
    split
    · next same => rwa [if_pos same] at here
    · next other =>
        rw [if_neg other] at here
        exact here.trans ((gathered.exchanged.documents name).trans (if_neg other))
  · rw [applied, if_pos rfl]
    exact gathered.keyed
  · intro j member field value other recorded
    rw [applied, if_neg other]
    rcases List.mem_append.1 member with earlier | own
    · rw [apart j earlier field (by simp [recorded])]
      exact gathered.written j earlier field value other recorded
    · rw [← List.mem_singleton.1 own, recorded]
      rfl
  · intro field absent
    have own := absent i (by simp)
    rw [applied, own, ← gathered.others field fun j member => absent j (List.mem_append_left _ member)]
    split <;> rfl

/-- All updates in some order. -/
theorem Gathered.run {data : ι → Record} {order : List ι}
    (ordered : Process.InOrder (fun i c => c.Applies table key (data i)) changes order u x)
    (distinct : ∀ i, (Keyed.keys (data i)).Nodup)
    (apart : ∀ i j, i ≠ j → ∀ field, (changes j).record.get? field ≠ none →
      (changes i).record.get? field = none) (once : (done ++ order).Nodup)
    (gathered : Gathered table key changes v u done found doc before after) :
    ∃ doc', Gathered table key changes v x (done ++ order) found doc' before after := by
  induction ordered generalizing done doc with
  | nothing v =>
      rw [List.append_nil]
      exact ⟨doc, gathered⟩
  | @next i order _ _ _ applies _ ih =>
      have new : ∀ j ∈ done, i ≠ j := by
        rintro j member rfl
        exact (List.nodup_append.1 once).2.2 i member i List.mem_cons_self rfl
      have one := gathered.next applies (distinct i) fun j member => apart i j (new j member)
      rw [← List.singleton_append, ← List.append_assoc] at once ⊢
      exact ih once one

/-- The first update finds the document, and the others find it as it was left. -/
theorem exists_gathered [Nonempty ι] {data : ι → Record} {order : List ι}
    (ordered : Process.InOrder (fun i c => c.Applies table key (data i)) changes order v x)
    (distinct : ∀ i, (Keyed.keys (data i)).Nodup)
    (apart : ∀ i j, i ≠ j → ∀ field, (changes j).record.get? field ≠ none →
      (changes i).record.get? field = none) (once : order.Nodup) (all : ∀ i, i ∈ order) :
    ∃ found doc before after, Gathered table key changes v x order found doc before after := by
  obtain ⟨found, before, after, start⟩ : ∃ found before after,
      Gathered table key changes v v [] found found before after := by
    cases order with
    | nil => exact absurd (all (Classical.arbitrary ι)) List.not_mem_nil
    | cons i later =>
        obtain ⟨u, applies⟩ := ordered.first
        exact gathered_nil applies
  obtain ⟨doc, gathered⟩ := Gathered.run ordered distinct apart (by simpa using once) start
  rw [List.nil_append] at gathered
  exact ⟨found, doc, before, after, gathered⟩

end Merging

/-! ### All interleavings -/

namespace Setting

open DataAccess.Process

variable [DecidableEq ι]

/-- Clients that update the document with one key. -/
def updating (clients : ι → Setting) (table key : String) (data : ι → Record) :
    ι → Process World (Outcome Record) :=
  fun i => ((clients i).stepwise.updateRecord table (.string key) (data i)).run

/-- The same updates, with what each of them was checked against. -/
def changing (clients : ι → Setting) (table key : String) (data : ι → Record) :
    ι → Process World (Outcome Change) :=
  fun i => ((clients i).stepwise.changeRecord table (.string key) (data i)).run

/-- The updates take the same turns, whether or not it is noted what they were checked against. -/
theorem run_updating (clients : ι → Setting) (table key : String) (data : ι → Record) (turns : List ι)
    (w : World) : run turns (updating clients table key data) w =
      (fun i => (Except.map Change.row ·) <$> (run turns (changing clients table key data) w).1 i,
        (run turns (changing clients table key data) w).2) := by
  rw [← run_map]
  refine congrArg (fun clients => run turns clients w) (funext fun i => ?_)
  rw [updating, ← Engine.row_changeRecord, ExceptT.run_map]
  rfl

/-- A client that returns a record has made a change. -/
theorem exists_change {clients : ι → Setting} {table key : String} {data : ι → Record} {turns : List ι}
    {w : World} {i : ι} {row : Record}
    (returned : (run turns (updating clients table key data) w).1 i = .done (.ok row)) :
    ∃ c : Change, (run turns (changing clients table key data) w).1 i = .done (.ok c) ∧
      c.row = row := by
  rw [run_updating] at returned
  obtain ⟨outcome, ended, same⟩ := exists_of_map_eq_done returned
  cases outcome with
  | error e => exact absurd same (by simp [Except.map])
  | ok c => exact ⟨c, ended, Except.ok.inj same⟩

/-- **No update is lost.**  Clients update the document with one key, and the steps of their calls
interleave in any order.  No two of them give the same field.  If all of them return, the document holds
every field of every update, the key aside, in the form that the call accepted and coerced.  Its key and
its other fields are as before, and so are all other documents. -/
theorem no_update_lost [Nonempty ι] (clients : ι → Setting) {table key : String} {data : ι → Record}
    (alone : ∀ i, (clients i).engine.registry.fallback? table = none)
    (distinct : ∀ i, (Keyed.keys (data i)).Nodup)
    (disjoint : ∀ i j, i ≠ j → ∀ field ∈ Keyed.keys (data i), field ∉ Keyed.keys (data j))
    {w : World} (inferred : w.InfersCached table) (turns : List ι) {rows : ι → Record}
    (returned : ∀ i, (run turns (updating clients table key data) w).1 i = .done (.ok (rows i))) :
    ∃ changes : ι → Change,
      (∀ i, (run turns (changing clients table key data) w).1 i = .done (.ok (changes i)) ∧
        (changes i).row = rows i ∧ (changes i).schema.IsInferred table ∧
        (changes i).schema.validateData (data i) = .ok (changes i).record) ∧
      ∃ found doc before after,
        Exchanged w (run turns (updating clients table key data) w).2 table (.string key) found doc
          before after ∧
        (∀ i, ∀ field ∈ Keyed.keys (data i), field ≠ documentKey → ∃ value,
          (changes i).record.get? field = some value ∧
            doc.get? field = some ((changes i).schema.storedForm field value)) ∧
        doc.get? documentKey = found.get? documentKey ∧
        ∀ field, (∀ i, field ∉ Keyed.keys (data i)) → doc.get? field = found.get? field := by
  choose changes ends rows_eq using fun i => exists_change (returned i)
  obtain ⟨order, once, all, ordered⟩ := run_inOrder inferred
    (fun i => (clients i).commits_changeRecord (alone i) key (data i)) ends
  have applied (i : ι) : (changes i).schema.IsInferred table ∧
      (changes i).schema.validateData (data i) = .ok (changes i).record := by
    obtain ⟨v, u, applies⟩ := ordered.exists_of_mem (all i)
    exact ⟨applies.inferred, applies.valid⟩
  have recorded (i : ι) (field : String) :
      (changes i).record.get? field = none ↔ field ∉ Keyed.keys (data i) := by
    rw [Keyed.get?_eq_none_iff, (Schema.validateData_eq_ok (applied i).2).1]
  have apart (i j : ι) (other : i ≠ j) (field : String)
      (given : (changes j).record.get? field ≠ none) : (changes i).record.get? field = none := by
    rw [ne_eq, recorded, not_not] at given
    exact (recorded i field).2 (disjoint j i other.symm field given)
  obtain ⟨found, doc, before, after, gathered⟩ := exists_gathered ordered distinct apart once all
  refine ⟨changes, fun i => ⟨ends i, rows_eq i, applied i⟩, found, doc, before, after, ?_, ?_,
    gathered.keyed, ?_⟩
  · rw [run_updating]
    exact ⟨gathered.exchanged.held, gathered.exchanged.key, gathered.exchanged.others,
      gathered.exchanged.documents⟩
  · intro i field given other
    have written : (changes i).record.get? field ≠ none := by rwa [ne_eq, recorded, not_not]
    obtain ⟨value, written⟩ := Option.ne_none_iff_exists'.1 written
    exact ⟨value, written, gathered.written i (all i) field value other written⟩
  · intro field absent
    exact gathered.others field fun i _ => (recorded i field).2 (absent i)

/-- Two clients take turns. -/
def alternating : List Bool := (List.replicate 8 [false, true]).flatten

/-- One of them writes the name, and the other the day. -/
def halves : Bool → Record
  | false => [("name", .string "Grace")]
  | true => [("born", .string "1906-12-09")]

theorem no_update_lost_onePerson :
    (∀ i, ∃ row, (run alternating (updating (fun _ => tally) "people" "a" halves) onePerson).1 i =
      .done (.ok row)) ∧
    ∃ changes : Bool → Change,
      (∀ i, (changes i).schema.validateData (halves i) = .ok (changes i).record) ∧
      ∃ found doc before after,
        Exchanged onePerson (run alternating (updating (fun _ => tally) "people" "a" halves)
          onePerson).2 "people" (.string "a") found doc before after ∧
        ∀ i, ∀ field ∈ Keyed.keys (halves i), ∃ value, (changes i).record.get? field = some value ∧
          doc.get? field = some ((changes i).schema.storedForm field value) := by
  have returned (i : Bool) : ∃ row, (run alternating (updating (fun _ => tally) "people" "a" halves)
      onePerson).1 i = .done (.ok row) := by
    obtain ⟨row, ended, -⟩ := exists_eq_done
      (x := (run alternating (updating (fun _ => tally) "people" "a" halves) onePerson).1 i)
      (p := fun _ => true) (by cases i <;> decide +kernel)
    exact ⟨row, ended⟩
  have keyless (i : Bool) : ∀ field ∈ Keyed.keys (halves i), field ≠ documentKey := by
    cases i <;> decide
  have uncached : onePerson.InfersCached "people" :=
    fun _ _ _ cached => absurd cached (by simp [onePerson])
  choose rows ends using returned
  obtain ⟨changes, each, found, doc, before, after, exchanged, held, -⟩ :=
    no_update_lost (fun _ => tally) (fun _ => rfl) (by decide) (by decide) uncached alternating ends
  refine ⟨fun i => ⟨rows i, ends i⟩, changes, fun i => (each i).2.2.2, found, doc, before, after,
    exchanged, ?_⟩
  intro i field given
  exact held i field given (keyless i field given)

/-- The name comes with another key. -/
def rekeyed : Bool → Record
  | false => ("_id", .string "z") :: halves false
  | true => halves true

/-- A key among the fields is accepted, and the document keeps the key that it has. -/
theorem key_not_written :
    (∀ i j, i ≠ j → ∀ field ∈ Keyed.keys (rekeyed i), field ∉ Keyed.keys (rekeyed j)) ∧
    (∀ i, ∃ c, (run alternating (changing (fun _ => tally) "people" "a" rekeyed) onePerson).1 i =
        .done (.ok c) ∧
      (run alternating (updating (fun _ => tally) "people" "a" rekeyed) onePerson).1 i =
        .done (.ok c.row) ∧
      (c.record.get? documentKey).bind Json.asString? = if i then none else some "z") ∧
    ((run alternating (updating (fun _ => tally) "people" "a" rekeyed) onePerson).2.documents
      "people").map (fun doc => (doc.get? documentKey).bind Json.asString?) = [some "a"] := by
  refine ⟨by decide, fun i => ?_, by decide +kernel⟩
  obtain ⟨c, ended, key⟩ := exists_eq_done
    (x := (run alternating (changing (fun _ => tally) "people" "a" rekeyed) onePerson).1 i)
    (p := fun c => (c.record.get? documentKey).bind Json.asString? == if i then none else some "z")
    (by cases i <;> decide +kernel)
  refine ⟨c, ended, ?_, by simpa using key⟩
  rw [run_updating]
  exact congrArg ((Except.map Change.row ·) <$> ·) ended

end Setting

end DataAccess
