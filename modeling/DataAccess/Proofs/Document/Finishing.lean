import DataAccess.Proofs.Datasource.BaseColumns
import DataAccess.Proofs.Document.Joining
import DataAccess.Proofs.Document.Stored
import DataAccess.Proofs.Query.Selecting
/-
**What a record shows of its document.**  A document is finished in three steps: relations are attached
to it, it is cut down to the requested fields, and what is left is shaped.  Relations only look at the
fields that they join by, and what they attach stands behind the fields of the document.  So a record
depends on the key, the requested fields and the joined ones, and on nothing else that is stored.

Main definitions:

* `DocumentDatasource.joinHop`, `DocumentDatasource.joinedValues` — what relations attach to a document,
  as a function of its fields;
* `RelationNode.Joined` — a key of an attached value.

Main results:

* `DocumentDatasource.attachRelations_eq` — **attached values stand behind the document's own**;
* `DocumentDatasource.joinedValues_congr` — and depend on the fields that are joined by;
* `Schema.mem_keys_shapeRow` — where the keys of a record come from;
* `Schema.agree_shapeRow` — rows that agree are shaped alike;
* `DocumentDatasource.yields_finishRow` — **the keys of a finished document**;
* `DocumentDatasource.returns_finishRow_agree` — **documents that agree on what is requested and joined
  are finished alike**.
-/

set_option autoImplicit false

namespace DataAccess

open RelationNode

/-! ### Keys of attached values -/

namespace RelationNode

/-- The keys of attached values: projected fields behind the paths of their nodes. -/
def Joined (nodes : List RelationNode) (key : String) : Prop :=
  ∃ n ∈ nodes, ∃ field ∈ n.columns.getD [], key = n.fieldKey field

theorem dotted_fieldKey (n : RelationNode) (field : String) : '.' ∈ (n.fieldKey field).toList := by
  simp [fieldKey]

theorem Joined.dotted {nodes : List RelationNode} {key : String} (joined : Joined nodes key) :
    '.' ∈ key.toList := by
  obtain ⟨n, -, field, -, rfl⟩ := joined
  exact n.dotted_fieldKey field

theorem mem_keys_fill {n : RelationNode} {found : Option Record} {row : Record} {key : String}
    (member : key ∈ Keyed.keys (n.fill found row)) :
    key ∈ Keyed.keys row ∨ ∃ field ∈ n.columns.getD [], key = n.fieldKey field := by
  rw [fill] at member
  generalize n.columns.getD [] = columns at member ⊢
  induction columns generalizing row with
  | nil => exact .inl member
  | cons field rest ih =>
      rcases ih member with member | ⟨other, there, same⟩
      · rw [Keyed.keys_insert] at member
        split at member
        · exact .inl member
        · rcases List.mem_append.1 member with member | member
          · exact .inl member
          · exact .inr ⟨field, List.mem_cons_self, List.mem_singleton.1 member⟩
      · exact .inr ⟨other, List.mem_cons_of_mem _ there, same⟩

/-- Behind a document without dots in its names, the joined part of a row is filled on its own. -/
theorem fill_append {n : RelationNode} {doc : Record} (flat : Undotted (Keyed.keys doc))
    (found : Option Record) (row : Record) : n.fill found (doc ++ row) = doc ++ n.fill found row := by
  rw [fill, fill]
  generalize n.columns.getD [] = columns
  induction columns generalizing row with
  | nil => rfl
  | cons field rest ih =>
      have absent : n.fieldKey field ∉ Keyed.keys doc := fun member =>
        flat _ member (n.dotted_fieldKey field)
      rw [List.foldl_cons, List.foldl_cons, Keyed.insert_append absent, ih]

end RelationNode

/-! ### Attaching -/

namespace DocumentDatasource

section Attaching

variable {m : Type → Type} [Monad m] (d : DocumentDatasource m)

/-- One hop, seen from the values joined so far; `own` is what the document holds. -/
def joinHop (own : String → Option Json) (state : Record × Keyed Record) (n : RelationNode) :
    ExceptT DataError m (Record × Keyed Record) := do
  let key := match Text.cutLast '.' n.path with
    | some (before, _) => (state.2.get? before).bind fun p => p.get? n.joinFields.1
    | none => (own n.joinFields.1).or (state.1.get? n.joinFields.1)
  let found ← d.related n key
  return (n.fill found state.1, match found with
    | some doc => state.2.insert n.path doc
    | none => state.2)

/-- The values that relations attach to a document that holds `own`. -/
def joinedValues (own : String → Option Json) (nodes : List RelationNode) :
    ExceptT DataError m Record := do
  return (← nodes.foldlM (d.joinHop own) ([], [])).1

/-- The values that are attached depend on the fields that join a table to the document. -/
theorem joinedValues_congr {own own' : String → Option Json} {nodes : List RelationNode}
    (same : ∀ n ∈ nodes, Text.cutLast '.' n.path = none → own n.joinFields.1 = own' n.joinFields.1) :
    d.joinedValues own nodes = d.joinedValues own' nodes := by
  have hops (state : Record × Keyed Record) :
      nodes.foldlM (d.joinHop own) state = nodes.foldlM (d.joinHop own') state := by
    induction nodes generalizing state with
    | nil => rfl
    | cons n rest ih =>
        have first : d.joinHop own state n = d.joinHop own' state n := by
          rw [joinHop, joinHop]
          cases cut : Text.cutLast '.' n.path with
          | some pieces => rfl
          | none => simp only [same n List.mem_cons_self cut]
        rw [List.foldlM_cons, List.foldlM_cons, first]
        exact bind_congr fun next => ih (fun k member => same k (List.mem_cons_of_mem _ member)) next
  rw [joinedValues, joinedValues, hops]

variable [LawfulMonad m] {doc : Record}

theorem attachRelation_append (flat : Undotted (Keyed.keys doc)) (values : Record)
    (joined : Keyed Record) (n : RelationNode) :
    d.attachRelation (doc ++ values, joined) n =
      (fun state => (doc ++ state.1, state.2)) <$> d.joinHop doc.get? (values, joined) n := by
  have filled (found : Option Record) : (n.columns.getD []).foldl (fun (row : Record) field =>
      row.insert s!"{n.path}.{field}" ((found.bind fun doc => doc.get? field).getD .null))
        (doc ++ values) = doc ++ n.fill found values := fill_append flat found values
  cases cut : Text.cutLast '.' n.path with
  | some pieces =>
      simp only [attachRelation, joinHop, cut, map_bind, map_pure]
      refine bind_congr fun found => ?_
      cases found <;> simp only [filled]
  | none =>
      simp only [attachRelation, joinHop, cut, map_bind, map_pure, Option.bind_some,
        Keyed.get?_append]
      refine bind_congr fun found => ?_
      cases found <;> simp only [filled]

/-- **Attached values stand behind the document's own.** -/
theorem attachRelations_eq (flat : Undotted (Keyed.keys doc)) (nodes : List RelationNode) :
    d.attachRelations nodes doc = (fun values => doc ++ values) <$> d.joinedValues doc.get? nodes := by
  have hops (values : Record) (joined : Keyed Record) :
      nodes.foldlM d.attachRelation (doc ++ values, joined) =
        (fun state => (doc ++ state.1, state.2)) <$>
          nodes.foldlM (d.joinHop doc.get?) (values, joined) := by
    induction nodes generalizing values joined with
    | nil => simp
    | cons n rest ih =>
        rw [List.foldlM_cons, List.foldlM_cons, attachRelation_append d flat, bind_map_left, map_bind]
        exact bind_congr fun state => ih state.1 state.2
  have start := hops [] []
  rw [List.append_nil] at start
  rw [attachRelations, start, joinedValues, bind_map_left, map_bind]
  exact bind_congr fun state => by rw [map_pure]

end Attaching

end DocumentDatasource

/-! ### Shaping -/

theorem Record.agree_insertBelow {out out' : Record} (same : Keyed.Agree out out')
    (path field : String) (v : Json) : Keyed.Agree (out.insertBelow (Text.splitOn '.' path) field v)
      (out'.insertBelow (Text.splitOn '.' path) field v) := by
  obtain ⟨hop, rest, segments⟩ := List.exists_cons_of_ne_nil (Text.splitOn_ne_nil '.' path)
  rw [segments, Record.insertBelow, Record.insertBelow, same hop]
  exact same.insert hop _

namespace Schema

variable {s : Schema} {nodes : List RelationNode}

/-- A value is read whatever stands in the record, and put there beside what does not matter. -/
theorem agree_shapeEntry {out out' next : Record} (same : Keyed.Agree out out')
    {entry : String × Json} (shaped : s.shapeEntry nodes out entry = .ok next) :
    ∃ next', s.shapeEntry nodes out' entry = .ok next' ∧ Keyed.Agree next next' := by
  have plain (shaped : (s.readField entry.1 entry.2).map (out.insert entry.1) = .ok next) :
      ∃ next', (s.readField entry.1 entry.2).map (out'.insert entry.1) = .ok next' ∧
        Keyed.Agree next next' := by
    obtain ⟨v, read, rfl⟩ := Outcome.map_eq_ok.1 shaped
    exact ⟨_, Outcome.map_eq_ok.2 ⟨v, read, rfl⟩, same.insert entry.1 v⟩
  rw [shapeEntry] at shaped ⊢
  cases cut : Text.cutLast '.' entry.1 with
  | none =>
      simp only [cut] at shaped ⊢
      exact plain shaped
  | some pieces =>
      obtain ⟨path, field⟩ := pieces
      cases found : nodes.find? (fun n => n.path = path) with
      | none =>
          simp only [cut, bind, Option.bind, found] at shaped ⊢
          exact plain shaped
      | some n =>
          simp only [cut, bind, Option.bind, found] at shaped ⊢
          obtain ⟨v, read, rfl⟩ := Outcome.map_eq_ok.1 shaped
          exact ⟨_, Outcome.map_eq_ok.2 ⟨v, read, rfl⟩, Record.agree_insertBelow same n.path field v⟩

theorem agree_foldlM_shapeEntry {row out out' record : Record} (same : Keyed.Agree out out')
    (shaped : row.foldlM (s.shapeEntry nodes) out = .ok record) :
    ∃ record', row.foldlM (s.shapeEntry nodes) out' = .ok record' ∧ Keyed.Agree record record' := by
  induction row generalizing out out' with
  | nil =>
      obtain rfl := Except.ok.inj shaped
      exact ⟨out', rfl, same⟩
  | cons entry rest ih =>
      obtain ⟨next, first, later⟩ := Outcome.foldlM_cons_eq_ok.1 shaped
      obtain ⟨next', first', same'⟩ := agree_shapeEntry same first
      obtain ⟨record', later', alike⟩ := ih same' later
      exact ⟨record', Outcome.foldlM_cons_eq_ok.2 ⟨next', first', later'⟩, alike⟩

/-- A key of a record is the first hop of a joined key of the row, or a key of the row itself. -/
theorem mem_keys_shapeRow {row record : Record} (shaped : s.shapeRow nodes row = .ok record)
    {key : String} (member : key ∈ Keyed.keys record) :
    ∃ k ∈ Keyed.keys row, (topHop nodes k).getD k = key := by
  suffices ∀ out, row.foldlM (s.shapeEntry nodes) out = .ok record →
      key ∈ Keyed.keys out ∨ ∃ k ∈ Keyed.keys row, (topHop nodes k).getD k = key from
    (this [] shaped).resolve_left List.not_mem_nil
  clear shaped
  induction row with
  | nil =>
      intro out shaped
      obtain rfl := Except.ok.inj shaped
      exact .inl member
  | cons entry rest ih =>
      obtain ⟨k, v⟩ := entry
      intro out shaped
      obtain ⟨next, first, later⟩ := Outcome.foldlM_cons_eq_ok.1 shaped
      rcases ih next later with member | ⟨other, there, top⟩
      · by_cases here : (topHop nodes k).getD k = key
        · exact .inr ⟨k, List.mem_cons_self, here⟩
        · -- the first value has left this key alone
          have kept : next.get? key = out.get? key := by
            rcases get?_shapeEntry first with ⟨hop, fields, top, -, others⟩ | ⟨top, others⟩
            · rw [top] at here
              exact others key (Ne.symm here)
            · rw [top] at here
              exact others key (Ne.symm here)
          refine .inl ?_
          by_contra absent
          rw [Keyed.get?_eq_none_iff.2 absent, Keyed.get?_eq_none_iff] at kept
          exact kept member
      · exact .inr ⟨other, List.mem_cons_of_mem _ there, top⟩

/-- A row of base columns is read field by field. -/
theorem get?_shapeRow_eq {base plain : Record} (flat : Undotted (Keyed.keys base))
    (distinct : (Keyed.keys base).Nodup) (shaped : s.shapeRow [] base = .ok plain) (key : String) :
    plain.get? key = (base.get? key).bind fun v => (s.readField key v).toOption := by
  cases stored : base.get? key with
  | none =>
      rw [Option.bind_none, Keyed.get?_eq_none_iff]
      intro member
      obtain ⟨k, there, top⟩ := mem_keys_shapeRow shaped member
      have own : topHop [] k = none := by
        rw [topHop]
        cases Text.cutLast '.' k <;> rfl
      rw [own, Option.getD_none] at top
      exact Keyed.get?_eq_none_iff.1 stored (top ▸ there)
  | some v =>
      obtain ⟨read, value, here⟩ :=
        get?_shapeRow_flat flat distinct shaped key v (Keyed.mem_of_get? stored)
      rw [here, Option.bind_some, value]
      rfl

/-- Base columns that agree are shaped alike, with the same joined values behind them. -/
theorem agree_shapeRow {base base' joined record : Record} (flat : Undotted (Keyed.keys base))
    (flat' : Undotted (Keyed.keys base')) (distinct : (Keyed.keys base).Nodup)
    (distinct' : (Keyed.keys base').Nodup) (same : Keyed.Agree base base')
    (shaped : s.shapeRow nodes (base ++ joined) = .ok record) :
    ∃ record', s.shapeRow nodes (base' ++ joined) = .ok record' ∧ Keyed.Agree record record' := by
  rw [shapeRow, List.foldlM_append, shapeRow_flat flat] at shaped
  obtain ⟨plain, first, later⟩ := Outcome.bind_eq_ok.1 shaped
  have readable : s.Readable base' := by
    rintro ⟨key, v⟩ member
    have there : base.get? key = some v := by
      rw [same key]
      exact (Keyed.get?_eq_some_iff distinct').2 member
    exact exists_shapeRow.1 ⟨plain, first⟩ (key, v) (Keyed.mem_of_get? there)
  obtain ⟨plain', first'⟩ := exists_shapeRow.2 readable
  have alike : Keyed.Agree plain plain' := by
    intro key
    rw [get?_shapeRow_eq flat distinct first, get?_shapeRow_eq flat' distinct' first', same key]
  obtain ⟨record', later', agree⟩ := agree_foldlM_shapeEntry alike later
  refine ⟨record', ?_, agree⟩
  rw [shapeRow, List.foldlM_append, shapeRow_flat flat']
  exact Outcome.bind_eq_ok.2 ⟨plain', first', later'⟩

end Schema

/-! ### Finishing -/

namespace DocumentDatasource

open DataAccess.Action

variable {doc : Record} {fields : Option (List String)}

/-- Attached values stay when a row is cut down. -/
theorem keepFields_append {values : Record} (dotted : ∀ key ∈ Keyed.keys values, '.' ∈ key.toList)
    (doc : Record) (fields : Option (List String)) :
    keepFields fields (doc ++ values) = keepFields fields doc ++ values := by
  rw [keepFields, keepFields]
  cases fields.getD [] with
  | nil => rfl
  | cons first rest =>
      dsimp only
      rw [List.filter_append]
      congr 1
      refine List.filter_eq_self.2 fun entry member => ?_
      have there := List.contains_iff_mem.2 (dotted entry.1 (Keyed.mem_keys member))
      simp only [there, Bool.or_true, Bool.true_or]

/-- Of a document the key and the requested fields are kept. -/
theorem get?_keepFields (flat : Undotted (Keyed.keys doc)) (projected : fields.getD [] ≠ [])
    (key : String) : (keepFields fields doc).get? key =
      if key = documentKey ∨ key ∈ fields.getD [] then doc.get? key else none := by
  rw [keepFields]
  split
  · next none => exact absurd none projected
  · rw [Keyed.get?_filter_keys fun k => k = documentKey || k.toList.contains '.' ||
      (fields.getD []).contains k]
    by_cases there : key ∈ Keyed.keys doc
    · simp [flat key there]
    · simp [Keyed.get?_eq_none_iff.2 there]

theorem undotted_keepFields (flat : Undotted (Keyed.keys doc)) :
    Undotted (Keyed.keys (keepFields fields doc)) := by
  intro key member
  refine flat key ?_
  rw [keepFields] at member
  split at member
  · exact member
  · exact (List.filter_sublist.map Prod.fst).subset member

theorem nodup_keepFields (distinct : (Keyed.keys doc).Nodup) :
    (Keyed.keys (keepFields fields doc)).Nodup := by
  rw [keepFields]
  split
  · exact distinct
  · exact distinct.sublist (List.filter_sublist.map Prod.fst)

variable {σ : Type} {d : DocumentDatasource (StateM σ)} {s : Schema} {nodes : List RelationNode}

/-- A document is finished by its joined values. -/
theorem finishRow_eq (flat : Undotted (Keyed.keys doc)) : d.finishRow s fields nodes doc =
    d.joinedValues doc.get? nodes >>= fun values =>
      liftExcept (s.shapeRow nodes (keepFields fields (doc ++ values))) := by
  rw [finishRow, attachRelations_eq d flat, bind_map_left]

section Keys

variable {inv : σ → Prop}
  (finds : ∀ table filter read, Keeps inv (ask (d.store.find table filter read)))

include finds

theorem yields_joinedValues (own : String → Option Json) (nodes : List RelationNode) :
    Action.Yields inv (d.joinedValues own nodes) fun values =>
      ∀ key ∈ Keyed.keys values, Joined nodes key := by
  have looked (n : RelationNode) (key : Option Json) :
      Action.Yields inv (d.related n key) fun _ => True := by
    rw [related.eq_def]
    split
    · exact Action.yields_pure trivial
    · exact Action.yields_pure trivial
    · exact (finds _ _ _).yields.bind fun _ _ => Action.yields_pure trivial
  have hops : Action.Yields inv (nodes.foldlM (d.joinHop own) ([], [])) fun state =>
      ∀ key ∈ Keyed.keys state.1, Joined nodes key := by
    refine Action.Yields.foldlM ?_ (by simp)
    rintro n member state joined
    refine (looked n _).bind fun found _ => Action.yields_pure ?_
    intro key inside
    rcases mem_keys_fill inside with before | ⟨field, projected, same⟩
    · exact joined key before
    · exact ⟨n, member, field, projected, same⟩
  exact hops.bind fun state joined => Action.yields_pure joined

/-- **The keys of a finished document** are the document's key, requested fields, and the first hops of
nodes with projected columns. -/
theorem yields_finishRow (flat : Undotted (Keyed.keys doc)) (projected : fields.getD [] ≠ [])
    (columns : ∀ n ∈ nodes, Undotted (n.columns.getD [])) :
    Action.Yields inv (d.finishRow s fields nodes doc) fun record =>
      ∀ key ∈ Keyed.keys record, key = documentKey ∨ key ∈ fields.getD [] ∨
        ∃ n ∈ nodes, n.columns.getD [] ≠ [] ∧ (Text.splitOn '.' n.path).head? = some key := by
  rw [finishRow_eq flat]
  refine (yields_joinedValues finds _ nodes).bind fun values joined => yields_liftExcept ?_
  intro record shaped key member
  rw [keepFields_append fun key member => (joined key member).dotted] at shaped
  obtain ⟨k, there, top⟩ := Schema.mem_keys_shapeRow shaped member
  rw [Keyed.keys, List.map_append, List.mem_append] at there
  rcases there with own | attached
  · have free := undotted_keepFields flat k own
    have same : k = key := by
      rw [topHop, Text.cutLast_eq_none_iff.2 free] at top
      exact top
    subst same
    by_contra other
    have absent : (keepFields fields doc).get? k = none := by
      rw [get?_keepFields flat projected, if_neg fun kept => other (kept.imp_right .inl)]
    exact Keyed.get?_eq_none_iff.1 absent own
  · obtain ⟨n, inside, field, shown, rfl⟩ := joined k attached
    refine .inr (.inr ⟨n, inside, List.ne_nil_of_mem shown, ?_⟩)
    obtain ⟨hop, rest, segments⟩ := List.exists_cons_of_ne_nil (Text.splitOn_ne_nil '.' n.path)
    have cut := Text.cutLast_dotted (columns n inside field shown) n.path
    have under : topHop nodes (n.fieldKey field) = some hop := by
      cases found : nodes.find? (fun k => k.path = n.path) with
      | none => exact absurd (List.mem_map_of_mem inside) (find?_eq_none_iff.1 found)
      | some k =>
          have path : k.path = n.path := (mem_of_find? found).2
          simp [topHop, fieldKey, cut, found, path, segments]
    rw [under, Option.getD_some] at top
    rw [segments, top]
    rfl

end Keys

/-- **Documents that agree on the key, the requested fields and the fields that are joined by are
finished alike.** -/
theorem returns_finishRow_agree {a b : Record} (flat : Undotted (Keyed.keys a))
    (flat' : Undotted (Keyed.keys b)) (distinct : (Keyed.keys a).Nodup)
    (distinct' : (Keyed.keys b).Nodup) (projected : fields.getD [] ≠ [])
    (kept : ∀ key, key = documentKey ∨ key ∈ fields.getD [] → a.get? key = b.get? key)
    (joined : ∀ n ∈ nodes, Text.cutLast '.' n.path = none →
      a.get? n.joinFields.1 = b.get? n.joinFields.1) {record : Record} {w w' : σ}
    (run : Returns (d.finishRow s fields nodes a) w record w') :
    ∃ record', Returns (d.finishRow s fields nodes b) w record' w' ∧ Keyed.Agree record record' := by
  have keeps (table : String) (filter : Filter) (read : StoreRead) :
      Keeps (fun _ : σ => True) (ask (d.store.find table filter read)) := fun _ _ => trivial
  rw [finishRow_eq flat] at run
  obtain ⟨values, v, attached, finished⟩ := returns_bind.1 run
  obtain ⟨shaped, rfl⟩ := returns_liftExcept.1 finished
  have dotted : ∀ key ∈ Keyed.keys values, '.' ∈ key.toList := fun key member =>
    (((yields_joinedValues keeps _ nodes).returns trivial attached).2 key member).dotted
  rw [keepFields_append dotted] at shaped
  have alike : Keyed.Agree (keepFields fields a) (keepFields fields b) := by
    intro key
    rw [get?_keepFields flat projected, get?_keepFields flat' projected]
    split
    · next asked => exact kept key asked
    · rfl
  obtain ⟨record', shaped', agree⟩ := Schema.agree_shapeRow (undotted_keepFields flat)
    (undotted_keepFields flat') (nodup_keepFields distinct) (nodup_keepFields distinct') alike shaped
  refine ⟨record', ?_, agree⟩
  rw [finishRow_eq flat', ← d.joinedValues_congr joined]
  refine returns_bind.2 ⟨values, v, attached, returns_liftExcept.2 ⟨?_, rfl⟩⟩
  rwa [keepFields_append dotted]

end DocumentDatasource

end DataAccess
