import DataAccess.Proofs.Datasource.Nesting
import DataAccess.Proofs.Query.Joins
/-
**What joining does to the base table's columns.**  The columns of the base table and the objects of
joined tables share one namespace: columns stand under their own names, objects under the first hop of
their path.  A joined value only touches the entry of its first hop.  So every column stays as it is
without joins, except one that bears the name of a table that is joined to the base table: it gives
way to the object of that table.

Main definitions:

* `RelationNode.topHop` — the entry that the value of a joined key is put into;
* `RelationNode.nestedUnder` — these entries for all keys of a row.

Main results:

* `Schema.get?_shapeEntry` — what one value of a row changes;
* `Schema.get?_foldlM_shapeEntry` — what joined values make of a column;
* `Schema.shapeRow_base` — **a column is kept exactly when no joined value is put under its name**;
* `Schema.shapeRow_overwrites` — a column with the name of a joined table.
-/

set_option autoImplicit false

namespace DataAccess

namespace RelationNode

/-- The entry that the value of a joined key is put into: the first hop of the path that the key
names, if a node has this path. -/
def topHop (nodes : List RelationNode) (key : String) : Option String := do
  let (path, _) ← Text.cutLast '.' key
  let n ← nodes.find? fun n => n.path = path
  (Text.splitOn '.' n.path).head?

/-- The entries that the joined values of a row are put into. -/
def nestedUnder (nodes : List RelationNode) (row : Record) : List String :=
  (Keyed.keys row).filterMap (topHop nodes)

end RelationNode

open RelationNode

/-- A value below a path changes one entry at the top, which is an object afterwards. -/
theorem Record.get?_insertBelow {path hop : String}
    (first : (Text.splitOn '.' path).head? = some hop) (out : Record) (field : String) (v : Json) :
    (∃ fields, (out.insertBelow (Text.splitOn '.' path) field v).get? hop = some (.object fields)) ∧
      ∀ other, other ≠ hop →
        (out.insertBelow (Text.splitOn '.' path) field v).get? other = out.get? other := by
  obtain ⟨rest, segments⟩ : ∃ rest, Text.splitOn '.' path = hop :: rest :=
    List.head?_eq_some_iff.1 first
  rw [segments, Record.insertBelow]
  refine ⟨⟨_, Keyed.get?_insert_self out hop _⟩, ?_⟩
  intro other ne
  exact Keyed.get?_insert_of_ne ne out _

namespace Schema

variable {s : Schema} {nodes : List RelationNode}

/-- What one value of a row changes: the entry that it is put into, or the one of its own key. -/
theorem get?_shapeEntry {out next : Record} {key : String} {v : Json}
    (shaped : s.shapeEntry nodes out (key, v) = .ok next) :
    (∃ hop fields, topHop nodes key = some hop ∧ next.get? hop = some (.object fields) ∧
      ∀ other, other ≠ hop → next.get? other = out.get? other) ∨
    (topHop nodes key = none ∧ ∀ other, other ≠ key → next.get? other = out.get? other) := by
  have plain (read : (s.readField key v).map (out.insert key) = .ok next) :
      ∀ other, other ≠ key → next.get? other = out.get? other := by
    obtain ⟨w, -, rfl⟩ := Outcome.map_eq_ok.1 read
    intro other ne
    exact Keyed.get?_insert_of_ne ne out w
  rw [shapeEntry] at shaped
  cases cut : Text.cutLast '.' key with
  | none =>
      simp only [cut] at shaped
      exact .inr ⟨by simp [topHop, cut], plain shaped⟩
  | some pieces =>
      obtain ⟨path, field⟩ := pieces
      cases found : nodes.find? (fun n => n.path = path) with
      | none =>
          simp only [cut, bind, Option.bind, found] at shaped
          exact .inr ⟨by simp [topHop, cut, found], plain shaped⟩
      | some n =>
          simp only [cut, bind, Option.bind, found] at shaped
          obtain ⟨w, -, rfl⟩ := Outcome.map_eq_ok.1 shaped
          obtain ⟨hop, rest, segments⟩ :=
            List.exists_cons_of_ne_nil (Text.splitOn_ne_nil '.' n.path)
          have first : (Text.splitOn '.' n.path).head? = some hop := by rw [segments]; rfl
          obtain ⟨⟨fields, here⟩, others⟩ := Record.get?_insertBelow first out field w
          exact .inl ⟨hop, fields, by simp [topHop, cut, found, first], here, others⟩

/-- Joined values leave a column alone, unless they are put under its name. -/
theorem get?_foldlM_shapeEntry {column : String} (flat : '.' ∉ column.toList)
    {joined out record : Record} (dotted : ∀ key ∈ Keyed.keys joined, '.' ∈ key.toList)
    (shaped : joined.foldlM (s.shapeEntry nodes) out = .ok record) :
    (column ∉ nestedUnder nodes joined → record.get? column = out.get? column) ∧
    (column ∈ nestedUnder nodes joined → ∃ fields, record.get? column = some (.object fields)) := by
  induction joined generalizing out with
  | nil =>
      obtain rfl := Except.ok.inj shaped
      exact ⟨fun _ => rfl, fun member => absurd member List.not_mem_nil⟩
  | cons entry rest ih =>
      obtain ⟨key, v⟩ := entry
      obtain ⟨next, first, later⟩ := Outcome.foldlM_cons_eq_ok.1 shaped
      obtain ⟨kept, nested⟩ := ih (fun k member => dotted k (List.mem_cons_of_mem _ member)) later
      have own : column ≠ key := by
        rintro rfl
        exact flat (dotted column List.mem_cons_self)
      by_cases ahead : column ∈ nestedUnder nodes rest
      · -- what comes later decides
        have here : column ∈ nestedUnder nodes ((key, v) :: rest) := by
          rw [nestedUnder, Keyed.keys_cons, List.mem_filterMap]
          obtain ⟨k, member, top⟩ := List.mem_filterMap.1 ahead
          exact ⟨k, List.mem_cons_of_mem _ member, top⟩
        exact ⟨fun absent => absurd here absent, fun _ => nested ahead⟩
      · rcases get?_shapeEntry first with ⟨hop, fields, top, object, others⟩ | ⟨top, others⟩
        · have names : nestedUnder nodes ((key, v) :: rest) = hop :: nestedUnder nodes rest := by
            rw [nestedUnder, Keyed.keys_cons, List.filterMap_cons_some top]
            rfl
          rw [names, kept ahead, List.mem_cons]
          constructor
          · intro absent
            exact others column fun same => absent (.inl same)
          · rintro (rfl | member)
            · exact ⟨fields, object⟩
            · exact absurd member ahead
        · have names : nestedUnder nodes ((key, v) :: rest) = nestedUnder nodes rest := by
            rw [nestedUnder, Keyed.keys_cons, List.filterMap_cons_none top]
            rfl
          rw [names, kept ahead]
          exact ⟨fun _ => others column own, fun member => absurd member ahead⟩

/-- Without joins every column is read by its own type. -/
theorem get?_shapeRow_flat {base plain : Record} (flat : ∀ key ∈ Keyed.keys base, '.' ∉ key.toList)
    (distinct : (Keyed.keys base).Nodup) (shaped : s.shapeRow [] base = .ok plain) :
    ∀ column v, (column, v) ∈ base →
      ∃ w, s.readField column v = .ok w ∧ plain.get? column = some w := by
  have owned : ∀ key ∈ Keyed.keys base, ∃ owner hops field, KeyOwner s [] key owner hops field := by
    intro key member
    exact ⟨s, [], key, .base (flat key member)⟩
  have clear : ClearKeys [] base := ⟨by simp, by simp⟩
  have apart : (Keyed.keys base).Pairwise fun key other =>
      PlacesApart (Text.splitOn '.' key) (Text.splitOn '.' other) := by
    refine distinct.imp_of_mem ?_
    intro key other here there ne
    exact clear.apart owned here there ne
  obtain ⟨leaves, each, spells⟩ :=
    foldlM_spells (by simp) owned apart (by simp) Record.spells_nil shaped
  intro column v member
  obtain ⟨i, bound, entry⟩ := List.getElem_of_mem member
  have bound' : i < leaves.length := each.length_eq ▸ bound
  obtain ⟨owner, hops, field, owns, place, read⟩ := each.get bound bound'
  simp only [List.get_eq_getElem, entry] at owns place read
  have there := spells.leaf _ (List.getElem_mem bound')
  cases owns with
  | base _ =>
      rw [place, List.nil_append, Json.at?_object_cons] at there
      refine ⟨_, read, ?_⟩
      simpa using there
  | joined here _ => exact absurd here List.not_mem_nil

/-- Rows whose keys are columns of the base table are shaped alike under any joins. -/
theorem shapeRow_flat {base : Record} (flat : ∀ key ∈ Keyed.keys base, '.' ∉ key.toList)
    (out : Record) :
    base.foldlM (s.shapeEntry nodes) out = base.foldlM (s.shapeEntry []) out := by
  induction base generalizing out with
  | nil => rfl
  | cons entry rest ih =>
      obtain ⟨key, v⟩ := entry
      have uncut := Text.cutLast_eq_none_iff.2 (flat key List.mem_cons_self)
      rw [List.foldlM_cons, List.foldlM_cons, shapeEntry_plain uncut, shapeEntry_plain uncut]
      refine bind_congr fun next => ?_
      exact ih (fun k member => flat k (List.mem_cons_of_mem _ member)) next

/-- **Joins leave the columns of the base table as they are, unless a joined table has the name of a
column.**  Take a row of base columns followed by joined keys that is shaped.  The base columns alone
are shaped as well, each read by its own type.  Every column stands in the record as it does there,
if no joined value of the row is put under its name; otherwise an object stands in its place. -/
theorem shapeRow_base {base joined record : Record}
    (flat : ∀ key ∈ Keyed.keys base, '.' ∉ key.toList) (distinct : (Keyed.keys base).Nodup)
    (dotted : ∀ key ∈ Keyed.keys joined, '.' ∈ key.toList)
    (shaped : s.shapeRow nodes (base ++ joined) = .ok record) :
    ∃ plain, s.shapeRow [] base = .ok plain ∧ ∀ column v, (column, v) ∈ base →
      ∃ w, s.readField column v = .ok w ∧ plain.get? column = some w ∧
        (column ∉ nestedUnder nodes joined → record.get? column = some w) ∧
        (column ∈ nestedUnder nodes joined →
          ∃ fields, record.get? column = some (.object fields)) := by
  rw [shapeRow, List.foldlM_append, shapeRow_flat flat] at shaped
  obtain ⟨plain, first, later⟩ := Outcome.bind_eq_ok.1 shaped
  refine ⟨plain, first, ?_⟩
  intro column v member
  obtain ⟨w, read, there⟩ := get?_shapeRow_flat flat distinct first column v member
  obtain ⟨kept, nested⟩ :=
    get?_foldlM_shapeEntry (flat column (Keyed.mem_keys member)) dotted later
  exact ⟨w, read, there, fun absent => (kept absent).trans there, nested⟩

end Schema

/-! ### A column with the name of a table -/

namespace SchemaRegistry

open Resolving

/-- People who keep the name of their department beside the reference to it. -/
def labelled : Schema :=
  .ofColumns "users" [.serverKey "id", .plain "department" .string, .plain "department_id" .number]
    [⟨"department", "id", "users", "department_id"⟩]

/-- The joins of such people along one path. -/
def followLabelled (path : String) : Resolving (StateM Unit) Unit :=
  (uncached [("users", labelled), ("department", department)]).resolveAll labelled [.field path]

/-- The columns of such a person. -/
def labelledRow : Record :=
  [("id", .string "1"), ("department", .string "Sales"), ("department_id", .nat 4)]

/-- The joined values of such a person. -/
def labelledJoin : Record := [("department.name", .string "Field sales")]

/-- The nodes of such a path. -/
def labelledNodes : List RelationNode := ((followLabelled "department.name").runFrom [] ()).1.2

theorem returns_labelledNodes :
    ∃ w, Returns (followLabelled "department.name") [] () () labelledNodes w :=
  ⟨_, returns_of_isOk (by decide +kernel)⟩

/-- The name of their department is a text, and in the record stands the joined department instead. -/
theorem shapeRow_overwrites : ∃ nodes w record,
    Returns (followLabelled "department.name") [] () () nodes w ∧
      labelled.shapeRow nodes (labelledRow ++ labelledJoin) = .ok record ∧
      labelled.readField "department" (.string "Sales") = .ok (.string "Sales") ∧
      record.get? "department" ≠ some (.string "Sales") := by
  obtain ⟨w, run⟩ := returns_labelledNodes
  have object : (labelled.shapeRow labelledNodes (labelledRow ++ labelledJoin)).toOption.any
      (fun record => ((record.get? "department").bind Json.asString?).isNone) = true := by
    decide +kernel
  cases shaped : labelled.shapeRow labelledNodes (labelledRow ++ labelledJoin) with
  | error e =>
      rw [shaped] at object
      exact absurd object (by simp [Except.toOption])
  | ok record =>
      rw [shaped] at object
      refine ⟨labelledNodes, w, record, run, shaped, rfl, ?_⟩
      intro same
      exact absurd object (by simp [Except.toOption, same, Json.asString?])

/-- The other columns of such a person stay as they are. -/
theorem shapeRow_base_labelled : ∃ record plain,
    labelled.shapeRow labelledNodes (labelledRow ++ labelledJoin) = .ok record ∧
      labelled.shapeRow [] labelledRow = .ok plain ∧
      (∃ w, labelled.readField "id" (.string "1") = .ok w ∧ record.get? "id" = some w) ∧
      ∃ fields, record.get? "department" = some (.object fields) := by
  have read : (labelled.shapeRow labelledNodes (labelledRow ++ labelledJoin)).isOk = true := by
    decide +kernel
  cases shaped : labelled.shapeRow labelledNodes (labelledRow ++ labelledJoin) with
  | error e =>
      rw [shaped] at read
      exact absurd read Bool.false_ne_true
  | ok record =>
      obtain ⟨plain, first, each⟩ :=
        Schema.shapeRow_base (by decide +kernel) (by decide +kernel) (by decide +kernel) shaped
      obtain ⟨w, value, -, kept, -⟩ := each "id" (.string "1") (by simp [labelledRow])
      obtain ⟨-, -, -, -, nested⟩ := each "department" (.string "Sales") (by simp [labelledRow])
      exact ⟨record, plain, rfl, first, ⟨w, value, kept (by decide +kernel)⟩,
        nested (by decide +kernel)⟩

end SchemaRegistry

end DataAccess
