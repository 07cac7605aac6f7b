import DataAccess.Json.Keyed
/-
**Relations.**  A relation is a foreign key `ownTable.ownColumn → table.column` between two tables;
a schema lists the relations that its table takes part in, on either side.  A name leads to the
first relation whose target it is, and failing that to the first whose owner it is.

Main definitions:

* `Relation` — a foreign key edge;
* `EdgeDirection` — which side of the edge a name matched;
* `RelationIndex`, `RelationIndex.build` — the edges by name;
* `RelationIndex.lookup`, `RelationIndex.contains` — the edge that leads to a name.

Main results:

* `RelationIndex.lookup_eq_none_iff` — a name leads nowhere exactly when no edge has it;
* `RelationIndex.lookup_forward`, `RelationIndex.lookup_back` — the index answers as the first edge
  of the list that matches.
-/

set_option autoImplicit false

namespace DataAccess

/-- A foreign key edge from `ownTable.ownColumn` to `table.column`. -/
structure Relation where
  table : String
  column : String
  ownTable : String
  ownColumn : String
deriving DecidableEq, Repr

/-- Which side of an edge a name matched. -/
inductive EdgeDirection
  /-- The name is the target table. -/
  | forward
  /-- The name is the owning table. -/
  | back
deriving DecidableEq, Repr

/-- The edges of a schema by the name they lead to; the first edge declared for a name stays. -/
structure RelationIndex where
  /-- Edges by target table. -/
  forward : Keyed Relation
  /-- Edges by owning table. -/
  back : Keyed Relation
deriving DecidableEq, Repr

namespace RelationIndex

/-- Writes an entry unless the key is present. -/
def insertNew (r : Keyed Relation) (key : String) (edge : Relation) : Keyed Relation :=
  if r.contains key then r else r ++ [(key, edge)]

/-- The index of a list of edges. -/
def build (relations : List Relation) : RelationIndex :=
  relations.foldl
    (fun index r => ⟨insertNew index.forward r.table r, insertNew index.back r.ownTable r⟩) ⟨[], []⟩

/-- The edge that leads to a name: by its target if there is one, else by its owner. -/
def lookup (index : RelationIndex) (name : String) : Option (Relation × EdgeDirection) :=
  match index.forward.get? name with
  | some r => some (r, .forward)
  | none => (index.back.get? name).map fun r => (r, .back)

/-- Whether an edge leads to a name. -/
def contains (index : RelationIndex) (name : String) : Bool :=
  index.forward.contains name || index.back.contains name

theorem lookup_eq_none_iff {index : RelationIndex} {name : String} :
    index.lookup name = none ↔ index.contains name = false := by
  rw [lookup, contains, Keyed.contains, Keyed.contains]
  cases index.forward.get? name <;> cases index.back.get? name <;> simp

theorem contains_of_lookup {index : RelationIndex} {name : String} {step : Relation × EdgeDirection}
    (h : index.lookup name = some step) : index.contains name = true := by
  rw [← Bool.not_eq_false, ← lookup_eq_none_iff, h]
  exact Option.some_ne_none step

theorem get?_insertNew (r : Keyed Relation) (key name : String) (edge : Relation) :
    (insertNew r key edge).get? name =
      (r.get? name).or (if key = name then some edge else none) := by
  have append : ∀ r : Keyed Relation, Keyed.get? (r ++ [(key, edge)]) name =
      (r.get? name).or (if key = name then some edge else none) := by
    intro r
    induction r with
    | nil => simp
    | cons e rest ih =>
      obtain ⟨k, v⟩ := e
      by_cases h : k = name <;> simp [h, ih]
  unfold insertNew
  split
  · next present =>
    by_cases h : key = name
    · subst h
      obtain ⟨v, hv⟩ := Option.isSome_iff_exists.1 present
      simp [hv]
    · simp [h]
  · exact append r

theorem foldl_get? (relations : List Relation) (index : RelationIndex) (name : String) :
    let result := relations.foldl
      (fun index r => ⟨insertNew index.forward r.table r, insertNew index.back r.ownTable r⟩) index
    result.forward.get? name =
        (index.forward.get? name).or (relations.find? fun r => r.table = name) ∧
      result.back.get? name =
        (index.back.get? name).or (relations.find? fun r => r.ownTable = name) := by
  induction relations generalizing index with
  | nil => simp
  | cons r rest ih =>
    have step := ih ⟨insertNew index.forward r.table r, insertNew index.back r.ownTable r⟩
    simp only [get?_insertNew, Option.or_assoc] at step
    simp only [List.foldl_cons]
    refine ⟨step.1.trans ?_, step.2.trans ?_⟩
    · by_cases h : r.table = name <;> simp [h]
    · by_cases h : r.ownTable = name <;> simp [h]

theorem lookup_forward (relations : List Relation) (name : String) :
    (build relations).forward.get? name = relations.find? fun r => r.table = name := by
  simpa [build] using (foldl_get? relations ⟨[], []⟩ name).1

theorem lookup_back (relations : List Relation) (name : String) :
    (build relations).back.get? name = relations.find? fun r => r.ownTable = name := by
  simpa [build] using (foldl_get? relations ⟨[], []⟩ name).2

end RelationIndex

end DataAccess
