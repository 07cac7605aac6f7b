import Mathlib.Data.List.Basic
import DataAccess.Proofs.Schema.Codec
/-
**Edges by name.**  The relations of a schema are indexed once by the names that they lead to.  Asking
the index is the same as going through the list: the first edge with the name as its target leads there,
and if there is none the first edge that the name owns, walked back.  The index belongs to the list
alone, so a schema that was written and read back leads where it led before.

Main definitions:

* `Relation.FirstOn` — an edge is the first of a list with a name on one of its sides;
* `Relation.LeadsTo` — where a list of edges leads from a name.

Main results:

* `RelationIndex.find?_eq_some_iff`, `RelationIndex.lookup_build_iff` — the index leads where the list does;
* `RelationIndex.contains_iff` — a name is in the index exactly when it leads somewhere;
* `Schema.links_declared` — the index of a schema that was read is that of its relations;
* `RelationIndex.stands_for_list` — **the index answers as the list does**, before and after writing.
-/

set_option autoImplicit false

namespace DataAccess

/-! ### The list of edges -/

namespace Relation

/-- The first edge of a list that has a name on one of its sides. -/
def FirstOn (side : Relation → String) (relations : List Relation) (name : String)
    (r : Relation) : Prop :=
  ∃ before after, relations = before ++ r :: after ∧ side r = name ∧ ∀ q ∈ before, side q ≠ name

/-- Where a list of edges leads from a name. -/
inductive LeadsTo (relations : List Relation) (name : String) :
    Option (Relation × EdgeDirection) → Prop
  /-- The first edge with the name as its target. -/
  | forward {r : Relation} (first : FirstOn Relation.table relations name r) :
      LeadsTo relations name (some (r, .forward))
  /-- No edge has the name as its target, and this is the first that the name owns. -/
  | back {r : Relation} (untargeted : ∀ q ∈ relations, q.table ≠ name)
      (first : FirstOn Relation.ownTable relations name r) :
      LeadsTo relations name (some (r, .back))
  /-- No edge has the name on either side. -/
  | nowhere (untargeted : ∀ q ∈ relations, q.table ≠ name)
      (unowned : ∀ q ∈ relations, q.ownTable ≠ name) : LeadsTo relations name none

end Relation

namespace RelationIndex

variable {relations : List Relation} {name : String}

theorem find?_eq_some_iff {side : Relation → String} {r : Relation} :
    relations.find? (fun q => side q = name) = some r ↔ Relation.FirstOn side relations name r := by
  rw [List.find?_eq_some_iff_append]
  constructor
  · rintro ⟨here, before, after, split, others⟩
    exact ⟨before, after, split, by simpa using here, by simpa using others⟩
  · rintro ⟨before, after, split, here, others⟩
    exact ⟨by simpa using here, before, after, split, by simpa using others⟩

theorem find?_eq_none_iff {side : Relation → String} :
    relations.find? (fun q => side q = name) = none ↔ ∀ q ∈ relations, side q ≠ name := by
  simp only [List.find?_eq_none, decide_eq_true_eq, ne_eq]

/-- Where the list leads, the index does. -/
theorem leadsTo_lookup (relations : List Relation) (name : String) :
    Relation.LeadsTo relations name ((build relations).lookup name) := by
  rw [lookup, lookup_forward, lookup_back]
  cases target : relations.find? fun r => r.table = name with
  | some r => exact .forward (find?_eq_some_iff.1 target)
  | none =>
      have untargeted := find?_eq_none_iff.1 target
      cases owner : relations.find? fun r => r.ownTable = name with
      | some r => exact .back untargeted (find?_eq_some_iff.1 owner)
      | none => exact .nowhere untargeted (find?_eq_none_iff.1 owner)

theorem lookup_build_iff {found : Option (Relation × EdgeDirection)} :
    (build relations).lookup name = found ↔ Relation.LeadsTo relations name found := by
  constructor
  · rintro rfl
    exact leadsTo_lookup relations name
  · intro leads
    rw [lookup, lookup_forward, lookup_back]
    cases leads with
    | forward first => rw [find?_eq_some_iff.2 first]
    | back untargeted first =>
        rw [find?_eq_none_iff.2 untargeted, find?_eq_some_iff.2 first]
        rfl
    | nowhere untargeted unowned =>
        rw [find?_eq_none_iff.2 untargeted, find?_eq_none_iff.2 unowned]
        rfl

theorem contains_iff {index : RelationIndex} :
    index.contains name = true ↔ ∃ step, index.lookup name = some step := by
  rw [← Option.ne_none_iff_exists', ne_eq, lookup_eq_none_iff, Bool.not_eq_false]

end RelationIndex

/-! ### Schemas that were read -/

theorem Schema.links_declared (table key : String) (columns : List Column)
    (relations : List Relation) :
    (declared table key columns relations).links = RelationIndex.build relations := by
  rw [declared]
  split <;> rfl

/-- **The index answers as the list of edges does.**  It leads from a name where the list leads, it
contains the names that lead somewhere, and a schema that is written and read back has the same index
again. -/
theorem RelationIndex.stands_for_list :
    (∀ (relations : List Relation) (name : String) (found : Option (Relation × EdgeDirection)),
      (build relations).lookup name = found ↔ Relation.LeadsTo relations name found) ∧
    (∀ (relations : List Relation) (name : String),
      (build relations).contains name = true ↔ ∃ step, (build relations).lookup name = some step) ∧
    ∀ s : Schema, (∀ c ∈ s.columns, ∀ n, c.maxLength = some n → n < 2 ^ 32) →
      ∃ t, Schema.ofJson? s.toJson = some t ∧ t.relations = s.relations ∧
        ∀ name, t.links.lookup name = s.links.lookup name ∧
          t.links.contains name = s.links.contains name := by
  refine ⟨fun _ _ _ => lookup_build_iff, fun _ _ => contains_iff, fun s fits => ?_⟩
  refine ⟨_, Schema.ofJson?_toJson_declared fits, ?_, fun name => ?_⟩
  · rw [Schema.declared]
    split <;> rfl
  · have same : (Schema.declared s.table s.primaryKey s.columns s.relations).links = s.links :=
      Schema.links_declared s.table s.primaryKey s.columns s.relations
    rw [same]
    exact ⟨rfl, rfl⟩

/-- Staff have a manager among the staff and two edges to their offices. -/
def staffSchema : Schema :=
  .ofColumns "staff" [.serverKey "id", .plain "manager_id" .number, .plain "office_id" .number]
    [⟨"office", "id", "staff", "office_id"⟩, ⟨"staff", "id", "staff", "manager_id"⟩,
     ⟨"office", "code", "staff", "office_code"⟩, ⟨"staff", "id", "badge", "staff_id"⟩]

/-- The schema, read back, leads forward to the staff, to an office along the first of two edges, and
back from the badges. -/
theorem RelationIndex.stands_for_list_staff :
    (∀ c ∈ staffSchema.columns, ∀ n, c.maxLength = some n → n < 2 ^ 32) ∧
    ∃ t, Schema.ofJson? staffSchema.toJson = some t ∧
      t.links.lookup "staff" = some (⟨"staff", "id", "staff", "manager_id"⟩, .forward) ∧
      t.links.lookup "office" = some (⟨"office", "id", "staff", "office_id"⟩, .forward) ∧
      t.links.lookup "badge" = some (⟨"staff", "id", "badge", "staff_id"⟩, .back) ∧
      t.links.contains "floor" = false := by
  have fits : ∀ c ∈ staffSchema.columns, ∀ n, c.maxLength = some n → n < 2 ^ 32 := by decide
  obtain ⟨t, read, -, same⟩ := stands_for_list.2.2 staffSchema fits
  refine ⟨fits, t, read, ?_, ?_, ?_, ?_⟩
  · rw [(same "staff").1]
    decide
  · rw [(same "office").1]
    decide
  · rw [(same "badge").1]
    decide
  · rw [(same "floor").2]
    decide

end DataAccess
