import DataAccess.Proofs.Document.Joining
import DataAccess.Proofs.Document.RelationFilters
/-
**Which documents a relation filter selects.**  The filter of a condition one hop away is compiled in
two steps: the documents of the other collection that satisfy the condition are read, and the values of
their join field become the list that the base documents are compared with.  Filters compare loosely,
so a null in that list stands for every base document without a value, where a join relates none.

Main definitions:

* `RelationNode.NearPlain` — a near field without a meaning of its own in filters;
* `RelationNode.Selects` — a base document is related to one that satisfies a condition;
* `RelationNode.ListsNull` — a document that satisfies the condition stores a null to join by.

Main results:

* `Filter.equal_symm` — loose equality of values that are not null is symmetric;
* `MemoryStore.find_only` — reading some fields of the matching documents;
* `Setting.runFrom_filterThrough` — the list that a filter through a node is made of;
* `RelationNode.accepts_listed_iff` — the base documents that pass such a filter;
* `Setting.conditionFilter_selects` — **a relation filter selects the related documents, and those
  without a value if a satisfying document stores a null**;
* `RelationNode.selects_uncoded` — a person without a code is found in a department without one.
-/

set_option autoImplicit false

namespace DataAccess

open RelationNode

/-! ### Comparing with a list -/

/-- Loose equality of values that are not null is symmetric. -/
theorem Filter.equal_symm {x y : Json} (filled : x.isNull = false) (filled' : y.isNull = false)
    (proper : x.Proper) (proper' : y.Proper) (equal : Filter.equal (some x) y = true) :
    Filter.equal (some y) x = true := by
  cases x with
  | null => exact absurd filled (by simp [Json.isNull])
  | number m =>
      obtain ⟨n, rfl, size⟩ := equal_number.1 equal
      rw [Number.compare_eq_iff] at size
      exact equal_number.2 ⟨m, rfl, Number.compare_eq_iff.2 size.symm⟩
  | _ =>
      have same := (equal_same filled (by simp)).1 equal
      exact equal_of_same filled' (proper.same_symm proper' same)

/-- A field that holds nothing equals null alone. -/
theorem equal_unheld {d : Record} {field : String} (unheld : d.held? field = none) (v : Json) :
    Filter.equal (d.get? field) v = v.isNull := by
  cases found : d.get? field with
  | none => rfl
  | some x =>
      cases x with
      | null => rfl
      | _ => exact absurd (Record.held?_eq_some_iff.2 ⟨found, rfl⟩) (by simp [unheld])

/-! ### Reading some fields -/

/-- A projected field is as it was. -/
theorem Collection.get?_projected {fields : List String} {field : String} (asked : field ∈ fields)
    (doc : Record) : (projected (some fields) doc).get? field = doc.get? field := by
  rw [projected, Keyed.get?_filter_keys fun key => key = documentKey || fields.contains key]
  simp [asked]

/-- Reading some fields is projecting every match. -/
theorem MemoryStore.find_only (s : MemoryStore) (name : String) (filter : Filter)
    (fields : List String) : s.find name filter (.only fields) =
      ((s.documents name).filter (Filter.accepts · filter)).map
        (Collection.projected (some fields)) := by
  simp only [find, StoreRead.only, StoreRead.everything, sorted_noFields, List.drop_zero]
  rfl

/-! ### The documents that are selected -/

namespace RelationNode

/-- The near field has no meaning of its own in filters. -/
def NearPlain (n : RelationNode) : Prop := n.joinFields.1 ≠ "$and" ∧ n.joinFields.1 ≠ "$or"

instance (n : RelationNode) : Decidable n.NearPlain := inferInstanceAs (Decidable (_ ∧ _))

variable (w : World) (n : RelationNode) (type : ColumnType) (c : WhereCondition) (field : String)

/-- The documents of the node's table that satisfy a condition on a field of some type. -/
def satisfying : List Record :=
  (w.documents n.table).filter (Filter.accepts · (.ofCondition field type c.operator c.value))

/-- The filter that lists the values of their join field. -/
def listed : Filter :=
  .object [(n.joinFields.1, .object [("$in",
    .array ((n.satisfying w type c field).filterMap fun d => d.get? n.joinFields.2))])]

/-- A document that matches `p` satisfies the condition. -/
def Selects (p : Record) : Prop :=
  ∃ d, n.Matches w p d ∧
    Filter.accepts d (.ofCondition field type c.operator c.value) = true

/-- A document that satisfies the condition stores a null in the field that it is joined by. -/
def ListsNull : Prop :=
  ∃ d ∈ w.documents n.table, Filter.accepts d (.ofCondition field type c.operator c.value) = true ∧
    d.get? n.joinFields.2 = some .null

variable {w n type c field}

/-- A listed value that is not null stands for the documents that match it. -/
theorem accepts_listed_of_held (plain : n.NearPlain)
    (proper : ∀ d ∈ w.documents n.table, (Json.object d).Proper) {p : Record}
    (own : (Json.object p).Proper) {v : Json} (held : p.held? n.joinFields.1 = some v) :
    Filter.accepts p (n.listed w type c field) = true ↔ n.Selects w type c field p := by
  obtain ⟨stored, filled⟩ := Record.held?_eq_some_iff.1 held
  have proper_v := own.get? stored
  rw [listed, accepts_clause plain, admits_listed, stored, List.any_eq_true]
  simp only [List.mem_filterMap, satisfying, List.mem_filter]
  constructor
  · rintro ⟨key, ⟨d, ⟨member, satisfies⟩, found⟩, equal⟩
    have filled_key : key.isNull = false := by
      rw [Bool.eq_false_iff]
      intro null
      rw [Json.isNull_iff.1 null, Filter.equal_null] at equal
      rcases equal with absent | null
      · exact absurd absent (by simp)
      · exact absurd filled (by simp [Option.some.inj null, Json.isNull])
    have proper_key := (proper d member).get? found
    refine ⟨d, ⟨member, v, held, ?_⟩, satisfies⟩
    rw [found]
    exact Filter.equal_symm filled filled_key proper_v proper_key equal
  · rintro ⟨d, ⟨member, v', held', equal⟩, satisfies⟩
    obtain rfl := Option.some.inj (held.symm.trans held')
    obtain ⟨key, far, same⟩ := held?_of_equal filled equal
    obtain ⟨found, filled_key⟩ := Record.held?_eq_some_iff.1 far
    have proper_key := (proper d member).get? found
    exact ⟨key, ⟨d, ⟨member, satisfies⟩, found⟩,
      Filter.equal_symm filled_key filled proper_key proper_v same⟩

/-- A listed null stands for the documents without a value. -/
theorem accepts_listed_of_unheld (plain : n.NearPlain) {p : Record}
    (unheld : p.held? n.joinFields.1 = none) :
    Filter.accepts p (n.listed w type c field) = true ↔ n.ListsNull w type c field := by
  rw [listed, accepts_clause plain, admits_listed, List.any_eq_true]
  simp only [List.mem_filterMap, satisfying, List.mem_filter, equal_unheld unheld]
  constructor
  · rintro ⟨key, ⟨d, ⟨member, satisfies⟩, found⟩, null⟩
    rw [Json.isNull_iff.1 null] at found
    exact ⟨d, member, satisfies, found⟩
  · rintro ⟨d, member, satisfies, found⟩
    exact ⟨.null, ⟨d, ⟨member, satisfies⟩, found⟩, rfl⟩

/-- The base documents that pass the filter of the list. -/
theorem accepts_listed_iff (proper : ∀ d ∈ w.documents n.table, (Json.object d).Proper) {p : Record}
    (own : (Json.object p).Proper) : Filter.accepts p (n.listed w type c field) = true ↔
      n.NearPlain ∧ (n.Selects w type c field p ∨
        p.held? n.joinFields.1 = none ∧ n.ListsNull w type c field) := by
  by_cases plain : n.NearPlain
  · cases held : p.held? n.joinFields.1 with
    | some v =>
        rw [accepts_listed_of_held plain proper own held]
        simp [plain]
    | none =>
        have unrelated : ¬ n.Selects w type c field p := by
          rintro ⟨d, ⟨-, v, held', -⟩, -⟩
          exact absurd (held.symm.trans held') (by simp)
        rw [accepts_listed_of_unheld plain held]
        simp [plain, unrelated]
  · have refused : Filter.accepts p (n.listed w type c field) = false := by
      rw [listed]
      by_cases all : n.joinFields.1 = "$and"
      · simp [all, Filter.accepts, Filter.acceptsClauses, Filter.acceptsEvery]
      · have any : n.joinFields.1 = "$or" := by
          by_contra other
          exact plain ⟨all, other⟩
        simp [any, Filter.accepts, Filter.acceptsClauses, Filter.acceptsSome]
    simp [plain, refused]

end RelationNode

/-! ### The filter of a condition -/

namespace Setting

open DataAccess.Action DocumentDatasource

variable (g : Setting) {s : Schema} {nodes : List RelationNode} {n : RelationNode}
  {c : WhereCondition} {hop field : String} {type : ColumnType}

/-- A filter through a node lists the join values of the documents that satisfy the condition. -/
theorem runFrom_filterThrough (declared : n.schema.columnType field = .ok type) (w : World) :
    runFrom (g.documents.filterThrough n c field) w = (.ok (n.listed w type c field), w) := by
  have keys : ((w.store.find n.table (Filter.ofCondition field type c.operator c.value)
      (.only [n.joinFields.2])).filterMap fun doc => doc.get? n.joinFields.2) =
        (n.satisfying w type c field).filterMap fun d => d.get? n.joinFields.2 := by
    rw [MemoryStore.find_only, List.filterMap_map, RelationNode.satisfying]
    refine List.filterMap_congr fun d _ => ?_
    exact Collection.get?_projected (List.mem_singleton.2 rfl) d
  rw [filterThrough, declared, listed, ← keys]
  rfl

/-- The filter of one condition is the filter of the condition. -/
theorem runFrom_compileFilter_single {filter : Filter} {w : World}
    (compiled : runFrom (g.documents.conditionFilter s nodes c) w = (.ok filter, w)) :
    runFrom (g.documents.compileFilter s [c] nodes) w = (.ok filter, w) := by
  rw [compileFilter, List.mapM_cons, List.mapM_nil]
  simp only [runFrom_bind, compiled]
  rfl

/-- **A relation filter selects the documents that are related to one that satisfies the condition,
and besides, if such a one stores a null to join by, all documents without a value.**  So it selects
exactly the related ones if and only if none that satisfies the condition stores a null there. -/
theorem conditionFilter_selects (oneHop : c.OneHop hop field)
    (reached : (nodes.find? fun n => n.path = hop) = some n)
    (declared : n.schema.columnType field = .ok type) (w : World)
    (proper : ∀ d ∈ w.documents n.table, (Json.object d).Proper) : ∃ filter,
    runFrom (g.documents.conditionFilter s nodes c) w = (.ok filter, w) ∧
      runFrom (g.documents.compileFilter s [c] nodes) w = (.ok filter, w) ∧
      (∀ p : Record, (Json.object p).Proper → (Filter.accepts p filter = true ↔
        n.NearPlain ∧ (n.Selects w type c field p ∨
          p.held? n.joinFields.1 = none ∧ n.ListsNull w type c field))) ∧
      (n.NearPlain → ((∀ p : Record, (Json.object p).Proper →
        (Filter.accepts p filter = true ↔ n.Selects w type c field p)) ↔
          ¬ n.ListsNull w type c field)) := by
  have compiled : runFrom (g.documents.conditionFilter s nodes c) w =
      (.ok (n.listed w type c field), w) := by
    rw [conditionFilter_oneHop _ s nodes oneHop, reached]
    exact g.runFrom_filterThrough declared w
  have accepts {p : Record} (own : (Json.object p).Proper) :
      Filter.accepts p (n.listed w type c field) = true ↔
        n.NearPlain ∧ (n.Selects w type c field p ∨
          p.held? n.joinFields.1 = none ∧ n.ListsNull w type c field) :=
    accepts_listed_iff proper own
  refine ⟨n.listed w type c field, compiled, g.runFrom_compileFilter_single compiled,
    fun p own => accepts own, ?_⟩
  intro plain
  constructor
  · intro agree null
    -- a document without any field is related to none
    have empty : (Json.object []).Proper := .object (by simp) (by simp)
    have accepted := (accepts empty).2 ⟨plain, .inr ⟨rfl, null⟩⟩
    obtain ⟨d, ⟨-, v, held, -⟩, -⟩ := (agree [] empty).1 accepted
    exact absurd held (by simp [Record.held?])
  · intro filled p own
    rw [accepts own]
    simp [plain, filled]

end Setting

/-! ### People without a code -/

namespace RelationNode

/-- People are joined to the department with their code. -/
def coded : RelationNode :=
  let edge : Relation := ⟨"department", "code", "users", "department_code"⟩
  { table := "department", path := "department", join := edge
    schema := .ofColumns "department" [.plain "name" .string, .plain "code" .string] [edge]
    columns := none, condition := none }

/-- Whoever belongs to the department of research. -/
def inResearch : WhereCondition := ⟨"department.name", .equals, .string "Research"⟩

theorem oneHop_inResearch : inResearch.OneHop "department" "name" := by
  constructor <;> decide

/-- A department of research with some code. -/
def codedWorld (code : Json) : World :=
  { store := [("department", ⟨[[("_id", .string "d"), ("name", .string "Research"),
      ("code", code)]], ⟨[], []⟩⟩)]
    cache := [], issued := 0 }

/-- A person without a code. -/
def uncoded : Record := [("_id", .string "u"), ("name", .string "Ada")]

/-- No department is theirs. -/
theorem not_selects_uncoded (w : World) :
    ¬ coded.Selects w .string inResearch "name" uncoded := by
  rintro ⟨d, ⟨-, v, held, -⟩, -⟩
  have unheld : uncoded.held? coded.joinFields.1 = none := rfl
  exact absurd (unheld.symm.trans held) (by simp)

/-- If the department has a code, the people of research are those with that code. -/
theorem selects_coded : ∃ filter,
    Action.runFrom (Setting.tally.documents.compileFilter SchemaRegistry.staff [inResearch] [coded])
        (codedWorld (.string "r")) = (.ok filter, codedWorld (.string "r")) ∧
      Filter.accepts (uncoded.insert "department_code" (.string "r")) filter = true ∧
      Filter.accepts uncoded filter = false := by
  have proper : ∀ d ∈ (codedWorld (.string "r")).documents "department", (Json.object d).Proper := by
    have texts : ∀ d ∈ (codedWorld (.string "r")).documents "department",
        (Keyed.keys d).Nodup ∧ ∀ entry ∈ d, entry.2.asString? ≠ none := by decide +kernel
    exact fun d member => proper_of_texts (texts d member).1 (texts d member).2
  have own : (Json.object uncoded).Proper := proper_of_texts (by decide) (by decide)
  have filled : ¬ coded.ListsNull (codedWorld (.string "r")) .string inResearch "name" := by
    rintro ⟨d, member, -, null⟩
    obtain rfl := List.mem_singleton.1 member
    exact absurd (Option.some.inj null) Json.noConfusion
  have reached : ([coded].find? fun n => n.path = "department") = some coded := rfl
  have declared : coded.schema.columnType "name" = .ok .string := rfl
  obtain ⟨filter, -, compiled, accepts, -⟩ := Setting.tally.conditionFilter_selects
    (s := SchemaRegistry.staff) oneHop_inResearch reached declared (codedWorld (.string "r")) proper
  refine ⟨filter, compiled, ?_, ?_⟩
  · refine (accepts _ (own.insert "department_code" (.string "r"))).2 ⟨by decide, .inl ?_⟩
    exact ⟨_, ⟨List.mem_singleton.2 rfl, .string "r", rfl, by decide +kernel⟩, by decide +kernel⟩
  · rw [Bool.eq_false_iff]
    intro accepted
    obtain ⟨-, related | ⟨-, null⟩⟩ := (accepts uncoded own).1 accepted
    · exact not_selects_uncoded _ related
    · exact filled null

/-- If its code is null, a person without a code is found, though no department is theirs. -/
theorem selects_uncoded : ∃ filter,
    Action.runFrom (Setting.tally.documents.compileFilter SchemaRegistry.staff [inResearch] [coded])
        (codedWorld .null) = (.ok filter, codedWorld .null) ∧
      Filter.accepts uncoded filter = true ∧
      ¬ coded.Selects (codedWorld .null) .string inResearch "name" uncoded := by
  have compiled : Action.runFrom (Setting.tally.documents.conditionFilter SchemaRegistry.staff [coded]
      inResearch) (codedWorld .null) =
        (.ok (coded.listed (codedWorld .null) .string inResearch "name"), codedWorld .null) := by
    rw [DocumentDatasource.conditionFilter_oneHop _ _ _ oneHop_inResearch]
    exact Setting.tally.runFrom_filterThrough rfl _
  refine ⟨_, Setting.tally.runFrom_compileFilter_single compiled, ?_, not_selects_uncoded _⟩
  rw [accepts_listed_of_unheld (by decide) rfl]
  exact ⟨_, List.mem_singleton.2 rfl, by decide +kernel, rfl⟩

end RelationNode

end DataAccess
