import DataAccess.Proofs.Engine.InMemory
import DataAccess.Proofs.Schema.ReadBack
/-
**The check of unique fields is exact.**  The check walks through the candidates, the columns that have
to be unique and have a value in the record, and counts the documents that hold what would be written,
the excluded one aside.  It stops at the first count that is not zero.  So it answers whether some column
is taken and names the first one that is, whatever the collection holds.

Main definitions:

* `Schema.Candidate` — the value that is looked for in a column;
* `Column.HeldBy` — a document holds what would be written for a value;
* `Schema.Taken` — a column whose value another document holds;
* `candidateFilter`, `MemoryStore.counts` — the filter of a candidate, and whether a document passes it.

Main results:

* `Schema.mem_uniqueCandidates_iff` — the candidates of a record;
* `accepts_candidateFilter` — **what is counted: a document that holds the value and is not excluded**;
* `Schema.taken_iff` — a column is taken exactly if a document is counted for it;
* `Setting.runFrom_checkCandidates_find` — the check finds the first candidate with a count;
* `Setting.uniqueCheck_exact` — **the check reports the first column that is taken, and only that**.
-/

set_option autoImplicit false

namespace DataAccess

/-! ### Candidates -/

/-- The value of a record that a check looks for in a column: the column is flagged or identifies
records, and the value is not null. -/
structure Schema.Candidate (identity : List String) (data : Record) (c : Column) (v : Json) :
    Prop where
  covered : c.uniqueKey = true ∨ c.field ∈ identity
  given : data.get? c.field = some v
  filled : v.isNull = false

/-- A document holds what would be written for a value, up to the equality of filters. -/
def Column.HeldBy (c : Column) (v : Json) (doc : Record) : Prop :=
  ∃ x, doc.get? c.field = some x ∧ Filter.equal (some x) (coerceWrite c.type v .native) = true

/-- A column is taken: some document, which is not the excluded one, holds the value that is looked
for. -/
def Schema.Taken (docs : List Record) (identity : List String) (data : Record)
    (excluded : Option Json) (c : Column) : Prop :=
  ∃ v, Candidate identity data c v ∧ ∃ doc ∈ docs,
    (∀ id, excluded = some id → Filter.equal (doc.get? documentKey) id = false) ∧ c.HeldBy v doc

/-! ### The candidates of a record -/

section Candidates

variable {s : Schema} {identity : List String} {data : Record} {c : Column} {v : Json}

/-- What the check looks for in a column, if anything. -/
def Column.candidate? (c : Column) (identity : List String) (data : Record) : Option Json :=
  if c.uniqueKey || identity.contains c.field then
    (data.get? c.field).filter fun v => !v.isNull
  else none

theorem Column.candidate?_eq_some_iff :
    c.candidate? identity data = some v ↔ Schema.Candidate identity data c v := by
  rw [candidate?, Option.ite_none_right_eq_some, Option.filter_eq_some_iff, Bool.or_eq_true,
    List.contains_iff_mem, Bool.not_eq_true']
  exact ⟨fun h => ⟨h.1, h.2.1, h.2.2⟩, fun h => ⟨h.covered, h.given, h.filled⟩⟩

theorem Schema.uniqueCandidates_eq : s.uniqueCandidates identity data =
    s.columns.filterMap fun c => (c.candidate? identity data).map (Prod.mk c) := by
  rw [uniqueCandidates, List.filterMap_filter]
  refine List.filterMap_congr fun c _ => ?_
  rw [Column.candidate?]
  split
  · cases data.get? c.field with
    | none => rfl
    | some v => cases filled : v.isNull <;> simp [Option.filter, filled]
  · rfl

theorem Schema.mem_uniqueCandidates_iff :
    (c, v) ∈ s.uniqueCandidates identity data ↔ c ∈ s.columns ∧ Candidate identity data c v := by
  simp [uniqueCandidates_eq, Column.candidate?_eq_some_iff]

/-- No candidate is found exactly if none of the columns has one. -/
theorem Schema.find?_uniqueCandidates_eq_none {p : Column × Json → Bool} :
    (s.uniqueCandidates identity data).find? p = none ↔
      ∀ c ∈ s.columns, ∀ v, Candidate identity data c v → p (c, v) = false := by
  simp only [List.find?_eq_none, Prod.forall, mem_uniqueCandidates_iff, Bool.not_eq_true, and_imp]
  exact ⟨fun h c listed v => h c v listed, fun h c v listed => h c listed v⟩

/-- The first candidate that is found stands in the first column that has one. -/
theorem Schema.find?_uniqueCandidates_eq_some {p : Column × Json → Bool}
    (found : (s.uniqueCandidates identity data).find? p = some (c, v)) :
    Candidate identity data c v ∧ p (c, v) = true ∧ ∃ before after,
      s.columns = before ++ c :: after ∧
        ∀ b ∈ before, ∀ v, Candidate identity data b v → p (b, v) = false := by
  rw [uniqueCandidates_eq, List.find?_filterMap] at found
  obtain ⟨d, first, looked⟩ := Option.bind_eq_some_iff.1 found
  obtain ⟨w, candidate, same⟩ := Option.map_eq_some_iff.1 looked
  obtain ⟨rfl, rfl⟩ := Prod.mk.inj same
  obtain ⟨passes, before, after, columns, earlier⟩ := List.find?_eq_some_iff_append.1 first
  refine ⟨Column.candidate?_eq_some_iff.1 candidate, ?_, before, after, columns, ?_⟩
  · simpa [candidate] using passes
  · intro b member v candidate
    simpa [Column.candidate?_eq_some_iff.2 candidate] using earlier b member

end Candidates

/-! ### What is counted -/

theorem MemoryStore.count_pos_iff {store : MemoryStore} {name : String} {filter : Filter} :
    0 < store.count name filter ↔ ∃ doc ∈ store.documents name, Filter.accepts doc filter = true := by
  change 0 < ((store.documents name).filter (Filter.accepts · filter)).length ↔ _
  rw [List.length_filter_pos_iff]

/-- The filter that is counted for a candidate: the value that would be written, and not the excluded
key. -/
def candidateFilter (excluded : Option Json) (candidate : Column × Json) : Filter :=
  Filter.all (Filter.ofCondition candidate.1.field candidate.1.type .equals candidate.2 ::
    (excluded.map fun id => (.object [(documentKey, .object [("$ne", id)])] : Filter)).toList)

/-- **What is counted for a candidate**: a document that holds the value and is not excluded. -/
theorem accepts_candidateFilter {c : Column} (plain : c.field ≠ "$and" ∧ c.field ≠ "$or") (v : Json)
    (excluded : Option Json) (doc : Record) :
    Filter.accepts doc (candidateFilter excluded (c, v)) = true ↔
      (∀ id, excluded = some id → Filter.equal (doc.get? documentKey) id = false) ∧
        Filter.equal (doc.get? c.field) (coerceWrite c.type v .native) = true := by
  rw [candidateFilter, accepts_all, List.all_cons, Bool.and_eq_true, Filter.ofCondition,
    accepts_clause plain, Filter.asked, admits_equal, and_comm]
  refine and_congr_left fun _ => ?_
  cases excluded with
  | none => simp
  | some id => simp [accepts_clause plain_documentKey, admits_unequal]

/-- Only a document that has the field holds a value that is not null. -/
theorem Column.heldBy_iff {c : Column} {v : Json} (filled : v.isNull = false) {doc : Record} :
    c.HeldBy v doc ↔ Filter.equal (doc.get? c.field) (coerceWrite c.type v .native) = true := by
  rw [HeldBy]
  cases doc.get? c.field with
  | none => simp [Filter.equal, isNull_coerceWrite, filled]
  | some x => simp

/-- Whether some document is counted for a candidate. -/
def MemoryStore.counts (store : MemoryStore) (name : String) (excluded : Option Json)
    (candidate : Column × Json) : Bool :=
  decide (0 < store.count name (candidateFilter excluded candidate))

theorem MemoryStore.counts_iff {store : MemoryStore} {name : String} {excluded : Option Json}
    {c : Column} (plain : c.field ≠ "$and" ∧ c.field ≠ "$or") {v : Json} :
    store.counts name excluded (c, v) = true ↔ ∃ doc ∈ store.documents name,
      (∀ id, excluded = some id → Filter.equal (doc.get? documentKey) id = false) ∧
        Filter.equal (doc.get? c.field) (coerceWrite c.type v .native) = true := by
  simp only [counts, decide_eq_true_eq, count_pos_iff, accepts_candidateFilter plain]

/-- **A column is taken exactly if some document is counted for it.** -/
theorem Schema.taken_iff {store : MemoryStore} {name : String} {identity : List String}
    {data : Record} {excluded : Option Json} {c : Column} (plain : c.field.toList.head? ≠ some '$') :
    Taken (store.documents name) identity data excluded c ↔
      ∃ v, Candidate identity data c v ∧ store.counts name excluded (c, v) = true := by
  refine exists_congr fun v => and_congr_right fun candidate => ?_
  simp only [MemoryStore.counts_iff (plain_of_head plain), Column.heldBy_iff candidate.filled]

/-! ### The check -/

namespace Setting

open DataAccess.Action DocumentDatasource

variable (g : Setting) (w : World) (s : Schema)

/-- **The check finds the first candidate that is counted**, and changes nothing. -/
theorem runFrom_checkCandidates_find (excluded : Option Json) (candidates : List (Column × Json)) :
    runFrom (g.documents.checkCandidates s excluded candidates) w =
      (.ok (match candidates.find? (w.store.counts s.table excluded) with
        | none => .valid
        | some (c, _) => .duplicate c.field), w) := by
  induction candidates with
  | nil => rfl
  | cons candidate rest ih =>
      obtain ⟨c, v⟩ := candidate
      have counted (filter : Filter) : runFrom (ask (g.documents.store.count s.table filter)) w =
          (.ok (w.store.count s.table filter), w) := rfl
      rw [checkCandidates, runFrom_bind, counted, List.find?_cons]
      change runFrom (if 0 < w.store.count s.table (candidateFilter excluded (c, v)) then _ else _) w = _
      by_cases taken : 0 < w.store.count s.table (candidateFilter excluded (c, v))
      · rw [if_pos taken, MemoryStore.counts, decide_eq_true taken]
        rfl
      · rw [if_neg taken, MemoryStore.counts, decide_eq_false taken]
        exact ih

/-- **The check of unique fields is exact.**  Whatever is stored and whichever document is excluded, as
long as no column starts with a dollar sign: the check answers, leaves everything as it is, and finds the
record valid exactly if none of the columns is taken.  Otherwise it names the first column that is.  In
particular a record is valid if only the excluded document holds its values. -/
theorem uniqueCheck_exact (plain : ∀ c ∈ s.columns, c.field.toList.head? ≠ some '$') (data : Record)
    (excluded : Option Json) :
    ∃ verdict, runFrom (g.documents.uniqueCheck s data excluded) w = (.ok verdict, w) ∧
      (verdict = .valid ↔ ∀ c ∈ s.columns, ¬ Schema.Taken (w.documents s.table)
        g.config.identityFields data excluded c) ∧
      (∀ field, verdict = .duplicate field → ∃ before c after,
        s.columns = before ++ c :: after ∧ c.field = field ∧
        Schema.Taken (w.documents s.table) g.config.identityFields data excluded c ∧
        ∀ b ∈ before, ¬ Schema.Taken (w.documents s.table) g.config.identityFields data excluded b) ∧
      (∀ id, excluded = some id →
        (∀ c ∈ s.columns, ∀ v, Schema.Candidate g.config.identityFields data c v →
          ∀ doc ∈ w.documents s.table, c.HeldBy v doc →
            Filter.equal (doc.get? documentKey) id = true) →
        verdict = .valid) := by
  have taken_iff {c : Column} (listed : c ∈ s.columns) :
      Schema.Taken (w.documents s.table) g.config.identityFields data excluded c ↔
        ∃ v, Schema.Candidate g.config.identityFields data c v ∧
          w.store.counts s.table excluded (c, v) = true := Schema.taken_iff (plain c listed)
  have run :=
    g.runFrom_checkCandidates_find w s excluded (s.uniqueCandidates g.config.identityFields data)
  cases found : (s.uniqueCandidates g.config.identityFields data).find?
      (w.store.counts s.table excluded) with
  | none =>
      have free := Schema.find?_uniqueCandidates_eq_none.1 found
      rw [found] at run
      refine ⟨.valid, run, ⟨fun _ c listed taken => ?_, fun _ => rfl⟩,
        fun _ named => absurd named (by simp), fun _ _ _ => rfl⟩
      obtain ⟨v, candidate, counted⟩ := (taken_iff listed).1 taken
      exact absurd counted (by simp [free c listed v candidate])
  | some first =>
      obtain ⟨c, v⟩ := first
      obtain ⟨candidate, counted, before, after, columns, earlier⟩ :=
        Schema.find?_uniqueCandidates_eq_some found
      have listed : c ∈ s.columns := by simp [columns]
      have taken := (taken_iff listed).2 ⟨v, candidate, counted⟩
      rw [found] at run
      refine ⟨.duplicate c.field, run, ⟨fun valid => absurd valid (by simp), fun none => ?_⟩,
        fun field named => ⟨before, c, after, columns, ?_, taken, fun b member held => ?_⟩,
        fun id excludes only => ?_⟩
      · exact absurd taken (none c listed)
      · exact UniqueVerdict.duplicate.inj named
      · obtain ⟨v, candidate, counted⟩ := (taken_iff (by simp [columns, member])).1 held
        exact absurd counted (by simp [earlier b member v candidate])
      · obtain ⟨v, candidate, doc, stored, others, held⟩ := taken
        exact absurd (only c listed v candidate doc stored held) (by simp [others id excludes])

/-- A member with a badge. -/
def numbered : World :=
  { store := [("members", ⟨[[("_id", .string "a"), ("badge", .int 7)]], ⟨[], []⟩⟩)]
    cache := [], issued := 0 }

/-- Members, no two of whom share a number. -/
def badges : Schema :=
  .ofColumns "members" [.serverKey "_id", (Column.plain "badge" .number).asUnique] []

/-- A number that is written as a text is taken, unless the member who has it is excluded. -/
theorem uniqueCheck_exact_numbered :
    runFrom (tally.documents.uniqueCheck badges [("badge", .string "7")] none) numbered =
      (.ok (.duplicate "badge"), numbered) ∧
    runFrom (tally.documents.uniqueCheck badges [("badge", .string "7")] (some (.string "a")))
      numbered = (.ok .valid, numbered) := by
  have plain : ∀ c ∈ badges.columns, c.field.toList.head? ≠ some '$' := by decide +kernel
  have badge : (Column.plain "badge" .number).asUnique ∈ badges.columns := .tail _ (.head _)
  have held : (Column.plain "badge" .number).asUnique.HeldBy (.string "7")
      [("_id", .string "a"), ("badge", .int 7)] := ⟨.int 7, rfl, by decide +kernel⟩
  constructor
  · obtain ⟨verdict, run, valid, first, -⟩ :=
      uniqueCheck_exact tally numbered badges plain [("badge", .string "7")] none
    cases verdict with
    | valid =>
        refine absurd ?_ (valid.1 rfl _ badge)
        exact ⟨.string "7", ⟨.inl rfl, rfl, rfl⟩, _, .head _, fun id same => absurd same (by simp), held⟩
    | duplicate field =>
        obtain ⟨before, c, after, columns, rfl, ⟨v, candidate, -⟩, -⟩ := first field rfl
        have named : c.field = "badge" := by
          have given := candidate.given
          by_contra other
          exact absurd given (by simp [Keyed.get?_cons, Ne.symm other])
        rw [run, named]
  · obtain ⟨verdict, run, -, -, only⟩ :=
      uniqueCheck_exact tally numbered badges plain [("badge", .string "7")] (some (.string "a"))
    obtain rfl : verdict = .valid := by
      refine only (.string "a") rfl fun c _ v _ doc stored _ => ?_
      obtain rfl : doc = [("_id", .string "a"), ("badge", .int 7)] := List.mem_singleton.1 stored
      decide +kernel
    exact run

end Setting

end DataAccess
