import Mathlib.Data.List.Nodup
import DataAccess.Datasource.Shape
import DataAccess.Proofs.Json.Keyed
import DataAccess.Proofs.Outcome
import DataAccess.Proofs.Text.Cutting
/-
**Nested records.**  The flat keys of a row are the places of a nested record: a key without a dot
stands at the top, and `path.field` below one object for each hop of the path.  As long as no key is
in the way of another one, shaping puts every value at its place, leaves it there while other values
follow, and adds nothing but the objects on the way.

Main definitions:

* `Json.at?` — the value at a place;
* `PlacesApart` — two places of which neither lies below the other;
* `Record.Spells` — a record that consists of certain leaves;
* `KeyOwner` — the schema and the place that a key of a flat row stands for.

Main results:

* `Json.at?_insertBelow_self`, `Json.at?_insertBelow_apart`, `Json.exists_at?_insertBelow_above` — a
  value that is put at a place, and what it leaves alone;
* `Record.Spells.insertBelow` — a record with one more leaf;
* `Schema.shapeRow_spells` — **shaping fails exactly when a value cannot be read, and otherwise the
  record consists of the values of the row at their places**.
-/

set_option autoImplicit false

namespace DataAccess

/-! ### Places -/

/-- The value at a place: what stands at the end of a chain of nested objects. -/
def Json.at? (v : Json) : List String → Option Json
  | [] => some v
  | key :: rest => (v.get? key).bind fun w => Json.at? w rest

/-- Neither of two places lies at or below the other. -/
def PlacesApart (p q : List String) : Prop := ¬ p <+: q ∧ ¬ q <+: p

theorem PlacesApart.symm {p q : List String} (h : PlacesApart p q) : PlacesApart q p := ⟨h.2, h.1⟩

namespace Json

@[simp] theorem at?_nil (v : Json) : v.at? [] = some v := rfl

theorem at?_object_cons (fields : Record) (key : String) (rest : List String) :
    (Json.object fields).at? (key :: rest) = (fields.get? key).bind (·.at? rest) := rfl

/-- Below its top a value is as the object of its entries. -/
theorem at?_entries (v : Json) {place : List String} (below : place ≠ []) :
    (Json.object v.entries).at? place = v.at? place := by
  obtain ⟨key, rest, rfl⟩ := List.exists_cons_of_ne_nil below
  cases v <;> rfl

/-- The object that stands at the first hop of a path, or an empty one. -/
theorem at?_inner (out : Record) (hop : String) {place : List String} (below : place ≠ []) :
    (Json.object (((out.get? hop).map Json.entries).getD [])).at? place =
      (Json.object out).at? (hop :: place) := by
  rw [at?_object_cons]
  cases out.get? hop with
  | none =>
      obtain ⟨key, rest, rfl⟩ := List.exists_cons_of_ne_nil below
      rfl
  | some w => exact at?_entries w below

/-! ### One value at its place -/

theorem at?_insertBelow_self (out : Record) (hops : List String) (field : String) (v : Json) :
    (Json.object (out.insertBelow hops field v)).at? (hops ++ [field]) = some v := by
  induction hops generalizing out with
  | nil =>
      rw [Record.insertBelow, List.nil_append, at?_object_cons, Keyed.get?_insert_self]
      rfl
  | cons hop rest ih =>
      rw [Record.insertBelow, List.cons_append, at?_object_cons, Keyed.get?_insert_self]
      exact ih _

/-- What stands apart from the place is left alone. -/
theorem at?_insertBelow_apart {hops : List String} {field : String} {place : List String}
    (apart : PlacesApart (hops ++ [field]) place) (out : Record) (v : Json) :
    (Json.object (out.insertBelow hops field v)).at? place = (Json.object out).at? place := by
  induction hops generalizing out place with
  | nil =>
      cases place with
      | nil => exact absurd List.nil_prefix apart.2
      | cons key rest =>
          have other : key ≠ field := by
            rintro rfl
            exact apart.1 (List.prefix_append [key] rest)
          rw [Record.insertBelow, at?_object_cons, Keyed.get?_insert_of_ne other, at?_object_cons]
  | cons hop hops ih =>
      cases place with
      | nil => exact absurd List.nil_prefix apart.2
      | cons key rest =>
          rw [Record.insertBelow, at?_object_cons]
          by_cases same : key = hop
          · subst same
            have inside : PlacesApart (hops ++ [field]) rest := by
              rw [List.cons_append, PlacesApart, List.prefix_cons_inj, List.prefix_cons_inj] at apart
              exact apart
            have below : rest ≠ [] := by
              rintro rfl
              exact inside.2 List.nil_prefix
            rw [Keyed.get?_insert_self, Option.bind_some, ih inside, at?_inner out key below]
          · rw [Keyed.get?_insert_of_ne same, at?_object_cons]

/-- On the way to the place there are objects, whose keys stay distinct. -/
theorem exists_at?_insertBelow_above {hops : List String} {field : String}
    {place more : List String} (way : hops ++ [field] = place ++ more) (above : more ≠ [])
    (out : Record) (v : Json) (distinct : ∀ fields,
      (Json.object out).at? place = some (.object fields) → (Keyed.keys fields).Nodup) :
    ∃ fields, (Json.object (out.insertBelow hops field v)).at? place = some (.object fields) ∧
      (Keyed.keys fields).Nodup := by
  induction place generalizing out hops with
  | nil =>
      have keys := distinct out rfl
      refine ⟨out.insertBelow hops field v, rfl, ?_⟩
      cases hops with
      | nil => exact Keyed.nodup_keys_insert keys field v
      | cons hop rest => exact Keyed.nodup_keys_insert keys hop _
  | cons hop place ih =>
      cases hops with
      | nil =>
          -- the place would be longer than the way to it
          have lengths := congrArg List.length way
          have positive := List.length_pos_iff.2 above
          simp only [List.length_append, List.length_cons, List.length_nil] at lengths
          omega
      | cons first hops =>
          rw [List.cons_append, List.cons_append] at way
          obtain ⟨same, rest⟩ := List.cons.inj way
          subst same
          rw [Record.insertBelow, at?_object_cons, Keyed.get?_insert_self]
          refine ih rest _ ?_
          intro fields found
          cases place with
          | nil =>
              obtain rfl := Json.object.inj (Option.some.inj found)
              cases present : Keyed.get? out first with
              | none => exact List.nodup_nil
              | some w =>
                  cases w with
                  | object inner =>
                      refine distinct inner ?_
                      rw [at?_object_cons, present]
                      rfl
                  | _ => exact List.nodup_nil
          | cons next place =>
              rw [at?_inner out first (List.cons_ne_nil next place)] at found
              exact distinct fields found

end Json

/-! ### Records of leaves -/

/-- A record consists of leaves: each of them stands at its place, and whatever else the record holds
is part of a leaf or an object with distinct keys on the way to one. -/
structure Record.Spells (out : Record) (leaves : List (List String × Json)) : Prop where
  leaf : ∀ entry ∈ leaves, (Json.object out).at? entry.1 = some entry.2
  nothing_else : ∀ place v, place ≠ [] → (Json.object out).at? place = some v →
    (∃ entry ∈ leaves, entry.1 <+: place) ∨
      ∃ entry ∈ leaves, place <+: entry.1 ∧ ∃ fields, v = .object fields ∧ (Keyed.keys fields).Nodup
  distinct : (Keyed.keys out).Nodup

namespace Record

theorem spells_nil : Record.Spells [] [] := by
  refine ⟨by simp, ?_, List.nodup_nil⟩
  intro place v below found
  obtain ⟨key, rest, rfl⟩ := List.exists_cons_of_ne_nil below
  exact absurd found (by simp [Json.at?_object_cons])

/-- The objects above a new leaf have distinct keys. -/
theorem Spells.distinct_above {out : Record} {leaves : List (List String × Json)}
    (spells : out.Spells leaves) {leaf place more : List String} (way : leaf = place ++ more)
    (apart : ∀ entry ∈ leaves, PlacesApart entry.1 leaf) {fields : Record}
    (found : (Json.object out).at? place = some (.object fields)) : (Keyed.keys fields).Nodup := by
  by_cases top : place = []
  · subst top
    obtain rfl := Json.object.inj (Option.some.inj found)
    exact spells.distinct
  · rcases spells.nothing_else place _ top found with
      ⟨entry, member, below⟩ | ⟨entry, member, -, inner, same, keys⟩
    · have before : entry.1 <+: leaf := way ▸ below.trans (List.prefix_append place more)
      exact absurd before (apart entry member).1
    · rwa [Json.object.inj same]

/-- A value that is put apart from the leaves is one more leaf. -/
theorem Spells.insertBelow {out : Record} {leaves : List (List String × Json)}
    (spells : out.Spells leaves) {hops : List String} {field : String}
    (apart : ∀ entry ∈ leaves, PlacesApart entry.1 (hops ++ [field])) (v : Json) :
    (out.insertBelow hops field v).Spells (leaves ++ [(hops ++ [field], v)]) := by
  have last : (hops ++ [field], v) ∈ leaves ++ [(hops ++ [field], v)] := by simp
  have above (place more : List String) (way : hops ++ [field] = place ++ more) (ne : more ≠ []) :=
    Json.exists_at?_insertBelow_above way ne out v fun fields found =>
      spells.distinct_above way apart found
  constructor
  · intro entry member
    rcases List.mem_append.1 member with member | member
    · rw [Json.at?_insertBelow_apart (apart entry member).symm]
      exact spells.leaf entry member
    · rw [List.mem_singleton.1 member]
      exact Json.at?_insertBelow_self out hops field v
  · intro place w below found
    by_cases under : hops ++ [field] <+: place
    · exact .inl ⟨_, last, under⟩
    · by_cases leads : place <+: hops ++ [field]
      · obtain ⟨more, way⟩ := leads
        have ne : more ≠ [] := by
          rintro rfl
          rw [List.append_nil] at way
          exact under (way ▸ List.prefix_refl place)
        obtain ⟨fields, there, keys⟩ := above place more way.symm ne
        rw [there] at found
        exact .inr ⟨_, last, ⟨more, way⟩, fields, (Option.some.inj found).symm, keys⟩
      · rw [Json.at?_insertBelow_apart ⟨under, leads⟩] at found
        refine (spells.nothing_else place w below found).imp ?_ ?_
        · rintro ⟨entry, member, rest⟩
          exact ⟨entry, List.mem_append_left _ member, rest⟩
        · rintro ⟨entry, member, rest⟩
          exact ⟨entry, List.mem_append_left _ member, rest⟩
  · obtain ⟨fields, top, keys⟩ := above [] (hops ++ [field]) rfl (by simp)
    rwa [Json.object.inj (Option.some.inj top)]

end Record

/-! ### The keys of a row -/

/-- What a key of a flat row stands for: `KeyOwner s nodes key owner hops field` says that it is the
field of the schema `owner`, below the hops.  A key without a dot is a field of the base table; the
path of a node and a field of it make up the key of a joined field. -/
inductive KeyOwner (s : Schema) (nodes : List RelationNode) :
    String → Schema → List String → String → Prop
  | base {key : String} (flat : '.' ∉ key.toList) : KeyOwner s nodes key s [] key
  | joined {n : RelationNode} {field : String} (member : n ∈ nodes) (flat : '.' ∉ field.toList) :
      KeyOwner s nodes (n.path ++ "." ++ field) n.schema (Text.splitOn '.' n.path) field

/-- No key of a row is in the way of another: none of the base table is the first hop of a path, and
none of a joined field is a path, or what a longer path begins with. -/
structure ClearKeys (nodes : List RelationNode) (row : Record) : Prop where
  base : ∀ key ∈ Keyed.keys row, '.' ∉ key.toList →
    ∀ n ∈ nodes, (Text.splitOn '.' n.path).head? ≠ some key
  joined : ∀ key ∈ Keyed.keys row, '.' ∈ key.toList →
    ∀ n ∈ nodes, n.path ≠ key ∧ ∀ rest, n.path ≠ key ++ "." ++ rest

variable {s : Schema} {nodes : List RelationNode}

/-- The place of a key is the list of its segments. -/
theorem KeyOwner.place_eq {key field : String} {owner : Schema} {hops : List String}
    (owned : KeyOwner s nodes key owner hops field) : hops ++ [field] = Text.splitOn '.' key := by
  cases owned with
  | base flat => rw [Text.splitOn_of_not_mem flat, List.nil_append]
  | joined _ flat => rw [Text.splitOn_dotted, Text.splitOn_of_not_mem flat]

/-- A key does not lead on to another one. -/
theorem ClearKeys.not_prefix {row : Record} (clear : ClearKeys nodes row) {key other field : String}
    {owner : Schema} {hops : List String} (here : key ∈ Keyed.keys row)
    (owned : KeyOwner s nodes other owner hops field) (ne : key ≠ other) :
    ¬ Text.splitOn '.' key <+: Text.splitOn '.' other := by
  intro before
  cases owned with
  | base flat =>
      rw [Text.splitOn_of_not_mem flat, ← List.nil_append [other], List.prefix_concat_iff] at before
      rcases before with same | nothing
      · rw [List.nil_append, ← Text.splitOn_of_not_mem flat] at same
        exact ne (Text.splitOn_inj same)
      · exact Text.splitOn_ne_nil '.' key (List.prefix_nil.1 nothing)
  | @joined n field member flat =>
      rw [Text.splitOn_dotted, Text.splitOn_of_not_mem flat, List.prefix_concat_iff] at before
      rcases before with same | before
      · refine ne (Text.splitOn_inj ?_)
        rw [same, Text.splitOn_dotted, Text.splitOn_of_not_mem flat]
      · -- the key is the beginning of a path
        by_cases dotted : '.' ∈ key.toList
        · obtain ⟨whole, part⟩ := clear.joined key here dotted n member
          rcases Text.of_splitOn_prefix before with same | ⟨rest, same⟩
          · exact whole same
          · exact part rest same
        · refine clear.base key here dotted n member ?_
          rw [Text.splitOn_of_not_mem dotted] at before
          obtain ⟨rest, segments⟩ := before
          rw [← segments]
          rfl

/-- Different keys stand for places apart. -/
theorem ClearKeys.apart {row : Record} (clear : ClearKeys nodes row) {key other : String}
    (owned : ∀ key ∈ Keyed.keys row, ∃ owner hops field, KeyOwner s nodes key owner hops field)
    (here : key ∈ Keyed.keys row) (there : other ∈ Keyed.keys row) (ne : key ≠ other) :
    PlacesApart (Text.splitOn '.' key) (Text.splitOn '.' other) := by
  obtain ⟨_, _, _, first⟩ := owned key here
  obtain ⟨_, _, _, second⟩ := owned other there
  exact ⟨clear.not_prefix here second ne, clear.not_prefix there first ne.symm⟩

/-! ### Rows -/

namespace Schema

/-- An entry is read by its owner and put at its place. -/
theorem shapeEntry_owned (paths : (nodes.map RelationNode.path).Nodup) {key field : String}
    {owner : Schema} {hops : List String} (owned : KeyOwner s nodes key owner hops field)
    (out : Record) (v : Json) :
    s.shapeEntry nodes out (key, v) = (owner.readField field v).map (out.insertBelow hops field) := by
  cases owned with
  | base flat => exact shapeEntry_plain (Text.cutLast_eq_none_iff.2 flat) s nodes out v
  | @joined n field member flat =>
      have found : nodes.find? (fun k => k.path = n.path) = some n := by
        cases reached : nodes.find? (fun k => k.path = n.path) with
        | none =>
            exact absurd (List.mem_map_of_mem member) (RelationNode.find?_eq_none_iff.1 reached)
        | some k =>
            obtain ⟨there, same⟩ := RelationNode.mem_of_find? reached
            rw [List.inj_on_of_nodup_map paths there member same]
      simp [shapeEntry, Text.cutLast_dotted flat, found]

/-- A leaf is the value of an entry as its owner reads it, at the place of the key. -/
def LeafOf (s : Schema) (nodes : List RelationNode) (entry : String × Json)
    (leaf : List String × Json) : Prop :=
  ∃ owner hops field, KeyOwner s nodes entry.1 owner hops field ∧ leaf.1 = hops ++ [field] ∧
    owner.readField field entry.2 = .ok leaf.2

/-- Rows whose keys are apart add their leaves to a record, one after another. -/
theorem foldlM_spells (paths : (nodes.map RelationNode.path).Nodup) {row out record : Record}
    {leaves : List (List String × Json)}
    (owned : ∀ key ∈ Keyed.keys row, ∃ owner hops field, KeyOwner s nodes key owner hops field)
    (apart : (Keyed.keys row).Pairwise fun key other =>
      PlacesApart (Text.splitOn '.' key) (Text.splitOn '.' other))
    (new : ∀ leaf ∈ leaves, ∀ key ∈ Keyed.keys row, PlacesApart leaf.1 (Text.splitOn '.' key))
    (spells : out.Spells leaves) (shaped : row.foldlM (s.shapeEntry nodes) out = .ok record) :
    ∃ more, List.Forall₂ (LeafOf s nodes) row more ∧ record.Spells (leaves ++ more) := by
  induction row generalizing out leaves with
  | nil =>
      obtain rfl := Except.ok.inj shaped
      exact ⟨[], .nil, by rwa [List.append_nil]⟩
  | cons entry rest ih =>
      obtain ⟨key, v⟩ := entry
      obtain ⟨next, first, later⟩ := Outcome.foldlM_cons_eq_ok.1 shaped
      obtain ⟨owner, hops, field, owns⟩ := owned key List.mem_cons_self
      rw [shapeEntry_owned paths owns] at first
      obtain ⟨w, read, rfl⟩ := Outcome.map_eq_ok.1 first
      obtain ⟨ahead, apart⟩ := List.pairwise_cons.1 apart
      have here : ∀ leaf ∈ leaves, PlacesApart leaf.1 (hops ++ [field]) := by
        intro leaf member
        rw [owns.place_eq]
        exact new leaf member key List.mem_cons_self
      have others : ∀ leaf ∈ leaves ++ [(hops ++ [field], w)], ∀ other ∈ Keyed.keys rest,
          PlacesApart leaf.1 (Text.splitOn '.' other) := by
        intro leaf member other there
        rcases List.mem_append.1 member with member | member
        · exact new leaf member other (List.mem_cons_of_mem _ there)
        · rw [List.mem_singleton.1 member, owns.place_eq]
          exact ahead other there
      obtain ⟨more, each, spelled⟩ := ih (fun other there => owned other (List.mem_cons_of_mem _ there))
        apart others (spells.insertBelow here w) later
      refine ⟨(hops ++ [field], w) :: more, .cons ⟨owner, hops, field, owns, rfl, read⟩ each, ?_⟩
      rwa [List.append_assoc] at spelled

/-- An entry that cannot be read ends the row, if an earlier one did not. -/
theorem foldlM_refused (paths : (nodes.map RelationNode.path).Nodup) {row out : Record}
    {entry : String × Json} (member : entry ∈ row) {owner : Schema} {hops : List String}
    {field : String} (owned : KeyOwner s nodes entry.1 owner hops field) {e : DataError}
    (refused : owner.readField field entry.2 = .error e) :
    ∃ e', row.foldlM (s.shapeEntry nodes) out = .error e' := by
  induction row generalizing out with
  | nil => exact absurd member List.not_mem_nil
  | cons first rest ih =>
      rw [List.foldlM_cons]
      cases shaped : s.shapeEntry nodes out first with
      | error e' => exact ⟨e', rfl⟩
      | ok next =>
          rcases List.mem_cons.1 member with rfl | later
          · rw [shapeEntry_owned paths owned, refused] at shaped
            exact absurd shaped (by simp [Except.map])
          · exact ih later

/-- **Shaping undoes the projection of joined tables.**  For nodes with distinct paths, and a row with
distinct keys none of which is in the way of another: the row is refused exactly when some value
cannot be read by the type of the column that owns its key; and otherwise the record consists of one
leaf for each entry, the value as it is read, at the key itself or below one object for each hop. -/
theorem shapeRow_spells (paths : (nodes.map RelationNode.path).Nodup) {row : Record}
    (distinct : (Keyed.keys row).Nodup)
    (owned : ∀ key ∈ Keyed.keys row, ∃ owner hops field, KeyOwner s nodes key owner hops field)
    (clear : ClearKeys nodes row) :
    ((∃ e, s.shapeRow nodes row = .error e) ↔ ∃ entry ∈ row, ∃ owner hops field,
      KeyOwner s nodes entry.1 owner hops field ∧ ∃ e, owner.readField field entry.2 = .error e) ∧
    ∀ record, s.shapeRow nodes row = .ok record →
      ∃ leaves, List.Forall₂ (LeafOf s nodes) row leaves ∧ record.Spells leaves := by
  constructor
  · constructor
    · rintro ⟨e, failed⟩
      obtain ⟨out, ⟨key, v⟩, member, refused⟩ := Outcome.exists_of_foldlM_eq_error failed
      obtain ⟨owner, hops, field, owns⟩ := owned key (Keyed.mem_keys member)
      rw [shapeEntry_owned paths owns] at refused
      refine ⟨(key, v), member, owner, hops, field, owns, ?_⟩
      cases read : owner.readField field v with
      | error e' => exact ⟨e', rfl⟩
      | ok w =>
          rw [read] at refused
          exact absurd refused (by simp [Except.map])
    · rintro ⟨entry, member, owner, hops, field, owns, e, refused⟩
      exact foldlM_refused paths member owns refused
  · intro record shaped
    have apart : (Keyed.keys row).Pairwise fun key other =>
        PlacesApart (Text.splitOn '.' key) (Text.splitOn '.' other) := by
      refine distinct.imp_of_mem ?_
      intro key other here there ne
      exact clear.apart owned here there ne
    exact foldlM_spells paths owned apart (by simp) Record.spells_nil shaped

/-- The departments of people and their companies, as two joined tables. -/
def branches : List RelationNode :=
  [{ table := "department", path := "department", join := ⟨"department", "id", "users", "department_id"⟩
     schema := .ofColumns "department" [.serverKey "id", .plain "budget" .number] []
     columns := some ["budget"], condition := none },
   { table := "company", path := "department.company"
     join := ⟨"company", "id", "department", "company_id"⟩
     schema := .ofColumns "company" [.serverKey "id", .plain "public" .boolean] []
     columns := some ["public", "budget"], condition := none }]

/-- A row of people: the longer path comes before and after the shorter one, and one of its values is
an object. -/
def branchRow : Record :=
  [("id", .string "7"), ("department.company.public", .string "t"),
   ("department.budget", .string "1500"), ("department.company.budget", .object [("eur", .nat 3)]),
   ("note", .null)]

theorem owned_branchRow : ∀ key ∈ Keyed.keys branchRow, ∃ owner hops field,
    KeyOwner (ofColumns "users" [.serverKey "id"] []) branches key owner hops field := by
  intro key member
  simp only [branchRow, Keyed.keys_cons, Keyed.keys_nil, List.mem_cons, List.not_mem_nil,
    or_false] at member
  have department : branches[0] ∈ branches := List.mem_cons_self
  have company : branches[1] ∈ branches := List.mem_cons_of_mem _ List.mem_cons_self
  rcases member with rfl | rfl | rfl | rfl | rfl
  · exact ⟨_, _, _, .base (by decide)⟩
  · exact ⟨_, _, _, @KeyOwner.joined _ _ _ "public" company (by decide)⟩
  · exact ⟨_, _, _, @KeyOwner.joined _ _ _ "budget" department (by decide)⟩
  · exact ⟨_, _, _, @KeyOwner.joined _ _ _ "budget" company (by decide)⟩
  · exact ⟨_, _, _, .base (by decide)⟩

theorem clear_branchRow : ClearKeys branches branchRow := by
  have before : ∀ key ∈ Keyed.keys branchRow, '.' ∈ key.toList → ∀ n ∈ branches,
      ¬ Text.splitOn '.' key <+: Text.splitOn '.' n.path := by
    decide +kernel
  refine ⟨by decide +kernel, ?_⟩
  intro key here dotted n member
  constructor
  · intro same
    exact before key here dotted n member (same ▸ List.prefix_refl _)
  · intro rest same
    refine before key here dotted n member ?_
    rw [same, Text.splitOn_dotted]
    exact List.prefix_append _ _

theorem shapeRow_spells_branches :
    ∃ record, (ofColumns "users" [.serverKey "id"] []).shapeRow branches branchRow = .ok record ∧
      ∃ leaves, List.Forall₂ (LeafOf (ofColumns "users" [.serverKey "id"] []) branches)
        branchRow leaves ∧ record.Spells leaves := by
  have shaping := shapeRow_spells (by decide +kernel) (by decide +kernel) owned_branchRow
    clear_branchRow
  have read : ((ofColumns "users" [.serverKey "id"] []).shapeRow branches branchRow).isOk = true := by
    decide +kernel
  cases shaped : (ofColumns "users" [.serverKey "id"] []).shapeRow branches branchRow with
  | error e =>
      rw [shaped] at read
      exact absurd read Bool.false_ne_true
  | ok record => exact ⟨record, rfl, shaping.2 record shaped⟩

end Schema

end DataAccess
