import DataAccess.Proofs.Outcome
import DataAccess.Proofs.Sql.Lexing
/-
**Names and values of the statements.**  Whatever texts serve as names of tables, columns and
aliases, each statement of the data access is read in one way: every name decodes to the name that
was quoted, and the marks outside of names are numbered from one, one for each bound value.  The
value of a mark is the one that belongs to the column beside it.

Main definitions:

* `CompiledQuery.Reads` — what a text is read as;
* `CompiledQuery.Binds` — the columns beside the marks, and the values bound to them;
* `Statement.operands`, `Statement.bindings` — what a condition binds.

Main results:

* `Statement.Spaced.reads`, `Statement.Spaced.binds` — a spaced statement reads as its tokens;
* `Statement.params_condition`, `Statement.owners_condition` — the values of a condition, and the
  column that they stand beside;
* `Statement.select_spec`, `Statement.insert_spec`, `Statement.update_spec`, … — one result for each
  kind of statement;
* `Statement.compile_reads_and_binds` — **every statement reads as intended**.
-/

set_option autoImplicit false

namespace DataAccess

/-- The text of a query is read as these names, with the marks `1, …, n` for its `n` values. -/
def CompiledQuery.Reads (d : Dialect) (q : CompiledQuery) (names : List String) : Prop :=
  ∃ ls, lex d q.sql.toList = some ls ∧ Lexeme.names ls = names ∧
    Lexeme.marks ls = (List.range q.params.length).map fun k => d.placeholder (k + 1)

/-- Each mark of a query stands beside a column, and its value is the one given with the column. -/
def CompiledQuery.Binds (d : Dialect) (q : CompiledQuery) (bound : List (String × Json)) : Prop :=
  q.params = bound.map Prod.snd ∧
    ∀ ls, lex d q.sql.toList = some ls →
      Lexeme.owners none ls = bound.map fun entry => some entry.1

namespace Statement

theorem Spaced.reads {s : Statement} (spaced : Spaced s) (d : Dialect) :
    (s.compile d).Reads d s.names :=
  ⟨s.lexemes d, lex_render spaced d, names_lexemes d s, marks_lexemes d s⟩

theorem Spaced.binds {s : Statement} (spaced : Spaced s) {d : Dialect}
    {bound : List (String × Json)} (values : s.params d = bound.map Prod.snd)
    (owners : s.owners none = bound.map fun entry => some entry.1) :
    (s.compile d).Binds d bound := by
  refine ⟨values, fun ls h => ?_⟩
  have read : ls = s.lexemes d := by
    have h' := h.symm.trans (lex_render spaced d)
    simpa using h'
  rw [read, owners_lexemes, owners]

/-! ### Values and columns of composed statements -/

section Composition

variable (d : Dialect)

@[simp] theorem params_nil : params d [] = [] := rfl

@[simp] theorem params_text (s : String) (rest : Statement) :
    params d (.text s :: rest) = params d rest := rfl

@[simp] theorem params_name (ident : String) (rest : Statement) :
    params d (.name ident :: rest) = params d rest := rfl

@[simp] theorem params_slot (type : ColumnType) (value : Json) (rest : Statement) :
    params d (.slot type value :: rest) =
      coerceWrite type value d.booleans :: params d rest := rfl

@[simp] theorem params_like (rest : Statement) : params d (.like :: rest) = params d rest := rfl

@[simp] theorem params_window (limit offset : Nat) (ordered : Bool) (rest : Statement) :
    params d (.window limit offset ordered :: rest) = params d rest := rfl

theorem params_separated (separator : String) (parts : List Statement) :
    params d (separated separator parts) = parts.flatMap (params d) :=
  flatMap_separated (params_append d) rfl parts

end Composition

/-- Parts that contribute one item each contribute the list of the items. -/
theorem flatMap_singles {α β : Type} {part : α → Statement} {view : Statement → List β}
    {item : α → β} (each : ∀ a, view (part a) = [item a]) (xs : List α) :
    (xs.map part).flatMap view = xs.map item := by
  induction xs with
  | nil => rfl
  | cons a rest ih =>
      rw [List.map_cons, List.flatMap_cons, ih, each]
      rfl

/-- Parts that contribute nothing contribute nothing together. -/
theorem flatMap_nothing {α β : Type} {part : α → Statement} {view : Statement → List β}
    (each : ∀ a, view (part a) = []) (xs : List α) : (xs.map part).flatMap view = [] := by
  induction xs with
  | nil => rfl
  | cons a rest ih =>
      rw [List.map_cons, List.flatMap_cons, ih, each]
      rfl

/-- The name that stands last in a statement, or the last one before it. -/
def lastName (last : Option String) (s : Statement) : Option String :=
  s.foldl (fun last t => match t with
    | .name ident => some ident
    | _ => last) last

theorem owners_append (s t : Statement) (last : Option String) :
    owners last (s ++ t) = owners last s ++ owners (lastName last s) t := by
  induction s generalizing last with
  | nil => rfl
  | cons a rest ih =>
      cases a with
      | text s => exact ih last
      | name ident => exact ih (some ident)
      | slot type value => exact congrArg (last :: ·) (ih last)
      | like => exact ih last
      | window limit offset ordered => exact ih last

/-- Parts that begin with the column they are about have the same columns wherever they stand. -/
theorem owners_separated {separator : String} {parts : List Statement}
    {own : Statement → List (Option String)}
    (h : ∀ p ∈ parts, ∀ last, owners last p = own p) (last : Option String) :
    owners last (separated separator parts) = parts.flatMap own := by
  induction parts generalizing last with
  | nil => rfl
  | cons p rest ih =>
      have first := h p List.mem_cons_self
      have others := ih fun q hq => h q (List.mem_cons_of_mem _ hq)
      cases rest with
      | nil => simpa [separated] using first last
      | cons q rest =>
          rw [separated_cons, owners_append, first]
          exact congrArg (own p ++ ·) (others _)

/-- A statement without slots. -/
def Fixed (s : Statement) : Prop := ∀ t ∈ s, t.isSlot = false

theorem fixed_nil : Fixed [] := fun _ h => absurd h List.not_mem_nil

theorem fixed_text (s : String) : Fixed [.text s] := by
  intro t ht
  rw [List.mem_singleton.1 ht]
  rfl

theorem Fixed.owners {s : Statement} (h : Fixed s) (last : Option String) :
    s.owners last = [] := by
  induction s generalizing last with
  | nil => rfl
  | cons a rest ih =>
      have others := ih fun t ht => h t (List.mem_cons_of_mem _ ht)
      have first := h a List.mem_cons_self
      cases a with
      | slot type value => exact absurd first (by simp [Token.isSlot])
      | text s => exact others last
      | name ident => exact others (some ident)
      | like => exact others last
      | window limit offset ordered => exact others last

theorem Fixed.params {s : Statement} (h : Fixed s) (d : Dialect) : s.params d = [] := by
  refine List.eq_nil_of_length_eq_zero ?_
  rw [length_params, slots, List.length_eq_zero_iff, List.filter_eq_nil_iff]
  intro t ht
  rw [h t ht]
  exact Bool.false_ne_true

theorem Fixed.separated {separator : String} {parts : List Statement}
    (h : ∀ p ∈ parts, Fixed p) : Fixed (separated separator parts) := by
  intro t ht
  rcases mem_separated ht with rfl | ⟨p, hp, ht⟩
  · rfl
  · exact h p hp t ht

/-! ### Conditions -/

/-- The values that a condition on a column binds, with the types that they are coerced to. -/
def operands (type : ColumnType) (c : WhereCondition) : List (ColumnType × Json) :=
  match c.operator with
  | .search => [(.string, .string ("%" ++ c.value.bareText ++ "%"))]
  | .isIn | .notIn => c.values.map fun v => (type, v)
  | .null | .notNull => []
  | _ => [(type, c.value)]

/-- The values that a condition binds, each with the field that it is compared with. -/
def bindings (d : Dialect) (s : Schema) (nodes : List RelationNode) (c : WhereCondition) :
    List (String × Json) :=
  match address s nodes c with
  | .ok (_, field, schema) =>
    ((schema.column? field).map fun column =>
      (operands column.type c).map fun (type, v) =>
        (field, coerceWrite type v d.booleans)).getD []
  | .error _ => []

theorem spaced_qualified (table column : String) {rest : Statement} :
    Spaced (qualified table column ++ rest) ↔ Apart rest ∧ Spaced rest := by
  have point : ".".toList.all isPlain = true := by decide
  have apart : isApart "." = true := by decide
  simp only [qualified, List.cons_append, List.nil_append, spaced_name, spaced_text, apart_text,
    point, apart, true_and]

theorem params_qualified (d : Dialect) (table column : String) (rest : Statement) :
    params d (qualified table column ++ rest) = params d rest := rfl

theorem owners_qualified (table column : String) (rest : Statement) (last : Option String) :
    owners last (qualified table column ++ rest) = owners (some column) rest := rfl

/-- The slots of a list of values with commas between them. -/
theorem params_slots (d : Dialect) (type : ColumnType) (values : List Json) :
    params d (separated ", " (values.map fun v => [.slot type v])) =
      values.map fun v => coerceWrite type v d.booleans := by
  rw [params_separated]
  exact flatMap_singles (by intros; rfl) values

theorem owners_slots (type : ColumnType) (values : List Json) (field : String) :
    owners (some field) (separated ", " (values.map fun v => [.slot type v])) =
      values.map fun _ => some field := by
  induction values with
  | nil => rfl
  | cons v rest ih =>
      cases rest with
      | nil => rfl
      | cons w rest =>
          rw [List.map_cons, List.map_cons, separated_cons]
          exact congrArg (some field :: ·) ih

theorem spaced_slots (type : ColumnType) (values : List Json) :
    Spaced (separated ", " (values.map fun v => [.slot type v])) := by
  refine Spaced.separated (by decide) (by decide) fun p hp => ?_
  obtain ⟨v, -, rfl⟩ := List.mem_map.1 hp
  exact ⟨trivial, trivial⟩

theorem spaced_condition (table field : String) (type : ColumnType) (c : WhereCondition) :
    Spaced (condition (qualified table field) type c) := by
  have closing : Spaced [.text ")"] := ⟨by decide, trivial⟩
  have apart : Apart [.text ")"] := by exact (by decide : isApart ")" = true)
  cases h : c.operator <;> simp only [condition, h]
  case isIn =>
      split
      · exact ⟨by decide, trivial⟩
      · rw [List.append_assoc, List.append_assoc, spaced_qualified]
        exact ⟨by exact (by decide : isApart " IN (" = true), by decide,
          (spaced_slots type c.values).append closing apart⟩
  case notIn =>
      split
      · exact ⟨by decide, trivial⟩
      · rw [List.append_assoc, List.append_assoc, spaced_qualified]
        exact ⟨by exact (by decide : isApart " NOT IN (" = true), by decide,
          (spaced_slots type c.values).append closing apart⟩
  all_goals
    rw [spaced_qualified]
    simp only [spaced_text, spaced_slot, spaced_like, apart_text, apart_nil, spaced_nil]
    decide

theorem params_condition (d : Dialect) (table field : String) (type : ColumnType)
    (c : WhereCondition) :
    params d (condition (qualified table field) type c) =
      (operands type c).map fun (type, v) => coerceWrite type v d.booleans := by
  cases h : c.operator <;> simp only [condition, operands, h]
  case isIn | notIn =>
      split
      · next none => simp [List.isEmpty_iff.1 none]
      · rw [List.append_assoc, List.append_assoc, params_qualified, params_append, params_append,
          params_slots]
        simp
  all_goals simp [params_qualified]

/-- The values of a condition stand beside the column that it is about. -/
theorem owners_condition (table field : String) (type : ColumnType) (c : WhereCondition)
    (last : Option String) :
    owners last (condition (qualified table field) type c) =
      (operands type c).map fun _ => some field := by
  have closed (values : List Json) : owners (some field)
      (separated ", " (values.map fun v => [.slot type v]) ++ [.text ")"]) =
        values.map fun _ => some field := by
    rw [owners_append, owners_slots]
    exact List.append_nil _
  cases h : c.operator <;> simp only [condition, operands, h]
  case isIn | notIn =>
      split
      · next none => simp [List.isEmpty_iff.1 none, owners]
      · rw [List.append_assoc, List.append_assoc, owners_qualified, List.map_map]
        exact closed c.values
  all_goals simp [owners_qualified, owners]

/-! ### Clauses of reads -/

theorem resolved_ok {s : Schema} {nodes : List RelationNode} {c : WhereCondition} {st : Statement}
    (h : resolved s nodes c = .ok st) :
    ∃ table field schema column, address s nodes c = .ok (table, field, schema) ∧
      schema.column? field = some column ∧
      st = condition (qualified table field) column.type c := by
  obtain ⟨⟨table, field, schema⟩, ha, h⟩ := Outcome.bind_eq_ok.1 h
  cases hc : schema.column? field with
  | none => simp [hc, throw, throwThe, MonadExceptOf.throw] at h
  | some column =>
      simp only [hc, pure, Except.pure, Except.ok.injEq] at h
      exact ⟨table, field, schema, column, ha, hc, h.symm⟩

/-- A resolved condition is spaced, binds its values, and has them beside its column. -/
theorem resolved_spec {s : Schema} {nodes : List RelationNode} {c : WhereCondition}
    {st : Statement} (h : resolved s nodes c = .ok st) (d : Dialect) :
    Spaced st ∧ params d st = (bindings d s nodes c).map Prod.snd ∧
      ∀ last, owners last st = (bindings d s nodes c).map fun entry => some entry.1 := by
  obtain ⟨table, field, schema, column, ha, hc, rfl⟩ := resolved_ok h
  have bound : bindings d s nodes c =
      (operands column.type c).map fun (type, v) => (field, coerceWrite type v d.booleans) := by
    simp [bindings, ha, hc]
  refine ⟨spaced_condition table field column.type c, ?_, fun last => ?_⟩
  · rw [params_condition, bound, List.map_map]
    rfl
  · rw [owners_condition, bound, List.map_map]
    rfl

/-- The clauses of a list of conditions are spaced; their values follow the conditions' order. -/
theorem mapM_resolved_spec {s : Schema} {nodes : List RelationNode} {cs : List WhereCondition}
    {clauses : List Statement} (h : cs.mapM (resolved s nodes) = .ok clauses) (d : Dialect) :
    (∀ p ∈ clauses, Spaced p) ∧
      clauses.flatMap (params d) = (cs.flatMap (bindings d s nodes)).map Prod.snd ∧
      ∀ last, owners last (separated " AND " clauses) =
        (cs.flatMap (bindings d s nodes)).map fun entry => some entry.1 := by
  induction cs generalizing clauses with
  | nil =>
      rw [Outcome.mapM_nil_eq_ok.1 h]
      exact ⟨fun p hp => absurd hp List.not_mem_nil, rfl, fun _ => rfl⟩
  | cons c rest ih =>
      obtain ⟨st, more, hst, hmore, rfl⟩ := Outcome.mapM_cons_eq_ok.1 h
      obtain ⟨spaced, values, owned⟩ := resolved_spec hst d
      obtain ⟨spaced', values', owned'⟩ := ih hmore
      refine ⟨fun p hp => ?_, ?_, fun last => ?_⟩
      · rcases List.mem_cons.1 hp with rfl | hp
        · exact spaced
        · exact spaced' p hp
      · rw [List.flatMap_cons, List.flatMap_cons, List.map_append, values, values']
      · rw [List.flatMap_cons, List.map_append]
        cases more with
        | nil =>
            -- no clause is left, so the other conditions bind nothing
            have none : (rest.flatMap (bindings d s nodes)).map (fun entry => some entry.1) = [] :=
              (owned' last).symm
            rw [none, List.append_nil]
            simpa [separated] using owned last
        | cons q more =>
            rw [separated_cons, owners_append, owned]
            exact congrArg _ (owned' _)

theorem conditions_spec {s : Schema} {nodes : List RelationNode} {cs : List WhereCondition}
    {filter : Statement} (h : conditions s nodes cs = .ok filter) (d : Dialect) :
    Spaced filter ∧ Apart filter ∧
      params d filter = (cs.flatMap (bindings d s nodes)).map Prod.snd ∧
      ∀ last, owners last filter =
        (cs.flatMap (bindings d s nodes)).map fun entry => some entry.1 := by
  obtain ⟨clauses, hc, h⟩ := Outcome.bind_eq_ok.1 h
  obtain ⟨spaced, values, owned⟩ := mapM_resolved_spec hc d
  simp only [pure, Except.pure, Except.ok.injEq] at h
  subst h
  split
  · next none =>
    rw [List.isEmpty_iff.1 none] at values owned
    exact ⟨trivial, trivial, values, owned⟩
  · refine ⟨⟨by decide, Spaced.separated (by decide) (by decide) spaced⟩, ?_, ?_, ?_⟩
    · exact (by decide : isApart " WHERE " = true)
    · rw [← values, List.cons_append, List.nil_append, params_text, params_separated]
    · exact owned

theorem fixed_qualified (table column : String) : Fixed (qualified table column) := by
  intro t ht
  simp only [qualified, List.mem_cons, List.not_mem_nil, or_false] at ht
  rcases ht with rfl | rfl | rfl <;> rfl

theorem fixed_append {s t : Statement} (hs : Fixed s) (ht : Fixed t) : Fixed (s ++ t) := by
  intro a ha
  rcases List.mem_append.1 ha with ha | ha
  · exact hs a ha
  · exact ht a ha

theorem aliased_spec (table column other : String) :
    Spaced (aliased table column other) ∧ Fixed (aliased table column other) := by
  constructor
  · rw [aliased, spaced_qualified]
    exact ⟨by exact (by decide : isApart " AS " = true), by decide, trivial, trivial⟩
  · refine fixed_append (fixed_qualified table column) fun t ht => ?_
    simp only [List.mem_cons, List.not_mem_nil, or_false] at ht
    rcases ht with rfl | rfl <;> rfl

theorem projection_spec (s : Schema) (fields : Option (List String))
    (nodes : List RelationNode) :
    Spaced (projection s fields nodes) ∧ Fixed (projection s fields nodes) := by
  have parts : ∀ p ∈ (if (fields.getD []).isEmpty then [[.name s.table, .text ".*"]] else
      ((if s.primaryKey ≠ "" ∧ ¬ (fields.getD []).contains s.primaryKey then [s.primaryKey]
        else []) ++ fields.getD []).map fun field => aliased s.table field field) ++
      nodes.flatMap (fun n => (n.columns.getD []).map fun field =>
        aliased n.table field s!"{n.path}.{field}"), Spaced p ∧ Fixed p := by
    intro p hp
    rcases List.mem_append.1 hp with hp | hp
    · split at hp
      · rw [List.mem_singleton.1 hp]
        refine ⟨⟨by exact (by decide : isApart ".*" = true), by decide, trivial⟩, fun t ht => ?_⟩
        simp only [List.mem_cons, List.not_mem_nil, or_false] at ht
        rcases ht with rfl | rfl <;> rfl
      · obtain ⟨field, -, rfl⟩ := List.mem_map.1 hp
        exact aliased_spec s.table field field
    · obtain ⟨n, -, hp⟩ := List.mem_flatMap.1 hp
      obtain ⟨field, -, rfl⟩ := List.mem_map.1 hp
      exact aliased_spec n.table field _
  exact ⟨Spaced.separated (by decide) (by decide) fun p hp => (parts p hp).1,
    Fixed.separated fun p hp => (parts p hp).2⟩

theorem joins_spec (nodes : List RelationNode) :
    Spaced (joins nodes) ∧ Apart (joins nodes) ∧ Fixed (joins nodes) := by
  induction nodes with
  | nil => exact ⟨trivial, trivial, fixed_nil⟩
  | cons n rest ih =>
      obtain ⟨spaced, apart, fixed⟩ := ih
      have left : isApart " LEFT JOIN " = true := by decide
      have edge : Spaced (qualified n.join.ownTable n.join.ownColumn ++ ([.text " = "] ++
          (qualified n.join.table n.join.column ++ joins rest))) := by
        rw [spaced_qualified, List.cons_append, List.nil_append, spaced_text, spaced_qualified]
        exact ⟨by exact (by decide : isApart " = " = true), by decide, apart, spaced⟩
      have unfolded : joins (n :: rest) = .text " LEFT JOIN " :: .name n.table :: .text " ON " ::
          (qualified n.join.ownTable n.join.ownColumn ++ ([.text " = "] ++
            (qualified n.join.table n.join.column ++ joins rest))) := by
        simp [joins, List.append_assoc]
      rw [unfolded]
      refine ⟨⟨by decide, by exact (by decide : isApart " ON " = true), by decide, edge⟩, left, ?_⟩
      intro t ht
      simp only [List.mem_cons, List.mem_append, List.not_mem_nil, or_false] at ht
      rcases ht with rfl | rfl | rfl | ht | rfl | ht | ht
      · rfl
      · rfl
      · rfl
      · exact fixed_qualified _ _ t ht
      · rfl
      · exact fixed_qualified _ _ t ht
      · exact fixed t ht

theorem order_spec (s : Schema) (sort : List SortCondition) :
    Spaced (order s sort) ∧ Apart (order s sort) ∧ Fixed (order s sort) := by
  have terms : ∀ p ∈ ((sort.filter fun c => !c.isDeep).map fun c =>
      qualified s.table c.column ++ [.text (" " ++ c.direction.keyword)]), Spaced p ∧ Fixed p := by
    intro p hp
    obtain ⟨c, -, rfl⟩ := List.mem_map.1 hp
    constructor
    · rw [spaced_qualified]
      cases c.direction
      · exact ⟨by exact (by decide : isApart " ASC" = true), by decide, trivial⟩
      · exact ⟨by exact (by decide : isApart " DESC" = true), by decide, trivial⟩
    · exact fixed_append (fixed_qualified _ _) (fixed_text _)
  unfold order
  simp only
  split
  · exact ⟨trivial, trivial, fixed_nil⟩
  · refine ⟨⟨by decide, Spaced.separated (by decide) (by decide) fun p hp => (terms p hp).1⟩,
      by exact (by decide : isApart " ORDER BY " = true), ?_⟩
    intro t ht
    rcases List.mem_cons.1 ht with rfl | ht
    · rfl
    · exact Fixed.separated (fun p hp => (terms p hp).2) t ht

/-! ### Reads -/

/-- A spaced statement whose values all belong to one part reads as intended. -/
theorem reads_and_binds {before filter after : Statement} {d : Dialect}
    {bound : List (String × Json)} (spaced : Spaced (before ++ (filter ++ after)))
    (fixed : Fixed before) (fixed' : Fixed after)
    (values : params d filter = bound.map Prod.snd)
    (owned : ∀ last, owners last filter = bound.map fun entry => some entry.1) :
    let st := before ++ (filter ++ after)
    (st.compile d).Reads d st.names ∧ (st.compile d).Binds d bound := by
  refine ⟨spaced.reads d, spaced.binds ?_ ?_⟩
  · rw [params_append, params_append, fixed.params, fixed'.params, values, List.append_nil]
    rfl
  · rw [owners_append, owners_append, fixed.owners, fixed'.owners, owned, List.append_nil]
    rfl

/-- The page clause of a read, if it asks for a window. -/
def page (window : Option Window) (ordered : Bool) : Statement :=
  match window with
  | some w => [.text " ", .window w.limit w.offset ordered]
  | none => []

theorem page_spec (window : Option Window) (ordered : Bool) :
    Spaced (page window ordered) ∧ Apart (page window ordered) ∧ Fixed (page window ordered) := by
  cases window with
  | none => exact ⟨trivial, trivial, fixed_nil⟩
  | some w =>
      refine ⟨⟨by decide, trivial⟩, by exact (by decide : isApart " " = true), fun t ht => ?_⟩
      simp only [page, List.mem_cons, List.not_mem_nil, or_false] at ht
      rcases ht with rfl | rfl <;> rfl

/-- What stands before the conditions of a read. -/
theorem spaced_read {head : Statement} {s : Schema} {nodes : List RelationNode}
    {filter after : Statement} (hhead : Spaced head) (spaced : Spaced filter)
    (apart : Apart filter) (spaced' : Spaced after) (apart' : Apart after)
    (start : Apart (.text " FROM " :: .name s.table :: joins nodes)) :
    Spaced ((head ++ (.text " FROM " :: .name s.table :: joins nodes)) ++ (filter ++ after)) := by
  obtain ⟨joined, apart_joined, -⟩ := joins_spec nodes
  have rest : Spaced (.text " FROM " :: .name s.table :: joins nodes) :=
    ⟨by decide, apart_joined, joined⟩
  exact (hhead.append rest start).append (spaced.append spaced' apart') (apart.append apart')

/-- What stands before the conditions of rows that are read. -/
def selectHead (s : Schema) (fields : Option (List String)) (nodes : List RelationNode) : Statement :=
  [.text "SELECT "] ++ projection s fields nodes ++ (.text " FROM " :: .name s.table :: joins nodes)

/-- What stands before the conditions of a count. -/
def countHead (s : Schema) (nodes : List RelationNode) : Statement :=
  .text "SELECT COUNT(*) AS total FROM " :: .name s.table :: joins nodes

section Reads

variable {s : Schema} {fields : Option (List String)} {nodes : List RelationNode}
  {cs : List WhereCondition} {sort : List SortCondition} {window : Option Window} {st : Statement}

/-- The clauses of a read, in their order. -/
theorem select_clauses (h : select s fields nodes cs sort window = .ok st) :
    ∃ filter, conditions s nodes cs = .ok filter ∧ st = selectHead s fields nodes ++
      (filter ++ (order s sort ++ page window (!(order s sort).isEmpty))) := by
  obtain ⟨filter, hf, h⟩ := Outcome.bind_eq_ok.1 h
  refine ⟨filter, hf, ?_⟩
  simp only [pure, Except.pure, Except.ok.injEq] at h
  rw [← h]
  cases window <;> simp [selectHead, page, List.append_assoc]

/-- The clauses of a count, in their order. -/
theorem count_clauses (h : count s nodes cs = .ok st) :
    ∃ filter, conditions s nodes cs = .ok filter ∧ st = countHead s nodes ++ (filter ++ []) := by
  obtain ⟨filter, hf, h⟩ := Outcome.bind_eq_ok.1 h
  refine ⟨filter, hf, ?_⟩
  simp only [pure, Except.pure, Except.ok.injEq] at h
  rw [← h]
  simp [countHead]

/-- The fixed texts of a read stand apart from its names and slots. -/
theorem spaced_select (h : select s fields nodes cs sort window = .ok st) : Spaced st := by
  obtain ⟨filter, hf, rfl⟩ := select_clauses h
  obtain ⟨spaced, apart, -⟩ := conditions_spec hf .postgres
  obtain ⟨projected, -⟩ := projection_spec s fields nodes
  obtain ⟨ordered, apart_order, -⟩ := order_spec s sort
  obtain ⟨paged, apart_page, -⟩ := page_spec window (!(order s sort).isEmpty)
  have from_text : isApart " FROM " = true := by decide
  have head : Spaced ([.text "SELECT "] ++ projection s fields nodes) := ⟨by decide, projected⟩
  exact spaced_read head spaced apart (ordered.append paged apart_page)
    (apart_order.append apart_page) from_text

theorem spaced_count (h : count s nodes cs = .ok st) : Spaced st := by
  obtain ⟨filter, hf, rfl⟩ := count_clauses h
  obtain ⟨spaced, apart, -⟩ := conditions_spec hf .postgres
  obtain ⟨joined, apart_joins, -⟩ := joins_spec nodes
  have head : Spaced (countHead s nodes) := ⟨by decide, apart_joins, joined⟩
  rw [List.append_nil]
  exact head.append spaced apart

/-- The source of a read and its joins hold no values. -/
theorem fixed_source (first : String) (s : Schema) (nodes : List RelationNode) :
    Fixed (.text first :: .name s.table :: joins nodes) := by
  obtain ⟨-, -, fixed_joins⟩ := joins_spec nodes
  intro t ht
  rcases List.mem_cons.1 ht with rfl | ht
  · rfl
  · rcases List.mem_cons.1 ht with rfl | ht
    · rfl
    · exact fixed_joins t ht

theorem select_spec (h : select s fields nodes cs sort window = .ok st) (d : Dialect) :
    (st.compile d).Reads d st.names ∧
      (st.compile d).Binds d (cs.flatMap (bindings d s nodes)) := by
  have spaced := spaced_select h
  obtain ⟨filter, hf, rfl⟩ := select_clauses h
  obtain ⟨-, -, values, owned⟩ := conditions_spec hf d
  obtain ⟨-, fixed_projection⟩ := projection_spec s fields nodes
  obtain ⟨-, -, fixed_order⟩ := order_spec s sort
  obtain ⟨-, -, fixed_page⟩ := page_spec window (!(order s sort).isEmpty)
  have fixed_head : Fixed (selectHead s fields nodes) :=
    fixed_append (fixed_append (fixed_text _) fixed_projection) (fixed_source " FROM " s nodes)
  exact reads_and_binds spaced fixed_head (fixed_append fixed_order fixed_page) values owned

theorem count_spec (h : count s nodes cs = .ok st) (d : Dialect) :
    (st.compile d).Reads d st.names ∧
      (st.compile d).Binds d (cs.flatMap (bindings d s nodes)) := by
  have spaced := spaced_count h
  obtain ⟨filter, hf, rfl⟩ := count_clauses h
  obtain ⟨-, -, values, owned⟩ := conditions_spec hf d
  exact reads_and_binds spaced (fixed_source _ s nodes) fixed_nil values owned

end Reads

/-! ### Writes -/

theorem names_append (s t : Statement) : names (s ++ t) = names s ++ names t :=
  List.filterMap_append

theorem names_separated (separator : String) (parts : List Statement) :
    names (separated separator parts) = parts.flatMap names :=
  flatMap_separated names_append rfl parts

/-- The column names of an insert, with commas between them. -/
def columnList (cells : List (Column × Json)) : Statement :=
  separated ", " (cells.map fun (c, _) => [.name c.field])

/-- The values of an insert, with commas between them. -/
def valueList (cells : List (Column × Json)) : Statement :=
  separated ", " (cells.map fun (c, v) => [.slot c.type v])

theorem spaced_columnList (cells : List (Column × Json)) : Spaced (columnList cells) := by
  refine Spaced.separated (by decide) (by decide) fun p hp => ?_
  obtain ⟨cell, -, rfl⟩ := List.mem_map.1 hp
  exact ⟨trivial, trivial⟩

theorem spaced_valueList (cells : List (Column × Json)) : Spaced (valueList cells) := by
  refine Spaced.separated (by decide) (by decide) fun p hp => ?_
  obtain ⟨cell, -, rfl⟩ := List.mem_map.1 hp
  exact ⟨trivial, trivial⟩

theorem names_columnList (cells : List (Column × Json)) :
    names (columnList cells) = cells.map fun cell => cell.1.field := by
  rw [columnList, names_separated]
  exact flatMap_singles (by intros; rfl) cells

theorem names_valueList (cells : List (Column × Json)) : names (valueList cells) = [] := by
  rw [valueList, names_separated]
  exact flatMap_nothing (by intros; rfl) cells

theorem params_columnList (d : Dialect) (cells : List (Column × Json)) :
    params d (columnList cells) = [] := by
  rw [columnList, params_separated]
  exact flatMap_nothing (by intros; rfl) cells

theorem params_valueList (d : Dialect) (cells : List (Column × Json)) :
    params d (valueList cells) =
      cells.map fun cell => coerceWrite cell.1.type cell.2 d.booleans := by
  rw [valueList, params_separated]
  exact flatMap_singles (by intros; rfl) cells

/-- An insert of cells: the lists of columns and values, with a text between and some at the end. -/
theorem listed_spec (table between : String) (cells : List (Column × Json)) (tail : Statement)
    (d : Dialect) (apart : isApart between = true) (plain : between.toList.all isPlain = true)
    (apart_tail : Apart tail) (spaced_tail : Spaced tail) (unnamed : names tail = [])
    (valueless : params d tail = []) :
    let st := .text "INSERT INTO " :: .name table :: .text " (" ::
      (columnList cells ++ (.text between :: (valueList cells ++ tail)))
    Spaced st ∧ names st = table :: (cells.map fun cell => cell.1.field) ∧
      params d st = cells.map fun cell => coerceWrite cell.1.type cell.2 d.booleans := by
  have values : Spaced (.text between :: (valueList cells ++ tail)) :=
    ⟨plain, (spaced_valueList cells).append spaced_tail apart_tail⟩
  have columns : Spaced (columnList cells ++ (.text between :: (valueList cells ++ tail))) :=
    (spaced_columnList cells).append values apart
  have value_names : names (.text between :: (valueList cells ++ tail)) = [] := by
    have both := names_append (valueList cells) tail
    rw [names_valueList, unnamed] at both
    exact both
  refine ⟨⟨by decide, by exact (by decide : isApart " (" = true), by decide, columns⟩, ?_, ?_⟩
  · have all := names_append (columnList cells) (.text between :: (valueList cells ++ tail))
    rw [value_names, names_columnList, List.append_nil] at all
    exact congrArg (table :: ·) all
  · rw [params_text, params_name, params_text, params_append, params_columnList, params_text,
      params_append, params_valueList, valueless]
    simp

theorem insert_spec (style : Returning) (s : Schema) (data : Record) (d : Dialect) :
    Spaced (insert style s data) ∧
      names (insert style s data) =
        s.table :: ((inserted s data).map fun cell => cell.1.field) ∧
      params d (insert style s data) =
        (inserted s data).map fun cell => coerceWrite cell.1.type cell.2 d.booleans := by
  have closing : Spaced [.text ")"] := ⟨by decide, trivial⟩
  have apart : Apart [.text ")"] := by exact (by decide : isApart ")" = true)
  have none (text : String) (h : isApart text = true) (plain : text.toList.all isPlain = true)
      (empty : inserted s data = []) :
      Spaced [.text "INSERT INTO ", .name s.table, .text text] ∧
        names [.text "INSERT INTO ", .name s.table, .text text] =
          s.table :: ((inserted s data).map fun cell => cell.1.field) ∧
        params d [.text "INSERT INTO ", .name s.table, .text text] =
          (inserted s data).map fun cell => coerceWrite cell.1.type cell.2 d.booleans := by
    rw [empty]
    exact ⟨⟨by decide, h, plain, trivial⟩, rfl, rfl⟩
  cases empty : (inserted s data).isEmpty with
  | true =>
      have empty' : inserted s data = [] := List.isEmpty_iff.1 empty
      cases style <;> simp only [insert, empty, List.cons_append, List.nil_append]
      case clause => exact none " DEFAULT VALUES RETURNING *" (by decide) (by decide) empty'
      case output => exact none " OUTPUT INSERTED.* DEFAULT VALUES" (by decide) (by decide) empty'
      case reselect => exact none " () VALUES ()" (by decide) (by decide) empty'
  | false =>
      cases style <;>
        simp only [insert, empty, List.append_assoc, List.cons_append, List.nil_append]
      case clause =>
          exact listed_spec s.table ") VALUES (" (inserted s data)
            [.text ")", .text " RETURNING *"] d (by decide) (by decide) apart
            ⟨by decide, by decide, trivial⟩ rfl rfl
      case output =>
          exact listed_spec s.table ") OUTPUT INSERTED.* VALUES (" (inserted s data) [.text ")"] d
            (by decide) (by decide) apart closing rfl rfl
      case reselect =>
          exact listed_spec s.table ") VALUES (" (inserted s data) [.text ")"] d
            (by decide) (by decide) apart closing rfl rfl

/-- The assignments of an update, with commas between them. -/
def assignmentList (cells : List (Column × Json)) : Statement :=
  separated ", " (cells.map fun (c, v) => [.name c.field, .text " = ", .slot c.type v])

theorem assignmentList_spec (cells : List (Column × Json)) (d : Dialect) :
    Spaced (assignmentList cells) ∧
      names (assignmentList cells) = (cells.map fun cell => cell.1.field) ∧
      params d (assignmentList cells) =
        (cells.map fun cell => coerceWrite cell.1.type cell.2 d.booleans) ∧
      ∀ last, owners last (assignmentList cells) = cells.map fun cell => some cell.1.field := by
  refine ⟨Spaced.separated (by decide) (by decide) fun p hp => ?_, ?_, ?_, fun last => ?_⟩
  · obtain ⟨cell, -, rfl⟩ := List.mem_map.1 hp
    exact ⟨by exact (by decide : isApart " = " = true), by decide, trivial, trivial⟩
  · rw [assignmentList, names_separated]
    exact flatMap_singles (by intros; rfl) cells
  · rw [assignmentList, params_separated]
    exact flatMap_singles (by intros; rfl) cells
  · have alone : ∀ p ∈ cells.map (fun (c, v) =>
        ([.name c.field, .text " = ", .slot c.type v] : Statement)), ∀ last,
        owners last p = owners none p := by
      intro p hp last
      obtain ⟨cell, -, rfl⟩ := List.mem_map.1 hp
      rfl
    rw [assignmentList, owners_separated alone]
    exact flatMap_singles (by intros; rfl) cells

/-- The comparison with the key that ends a write. -/
def keyClause (s : Schema) (key : String) (id : Json) : Statement :=
  [.text " WHERE ", .name key, .text " = ", .slot (keyType s key) id]

/-- What a write of one key binds: the key, in the type of its column. -/
def keyBinding (d : Dialect) (s : Schema) (key : String) (id : Json) : String × Json :=
  (key, coerceWrite (keyType s key) id d.booleans)

theorem spaced_keyClause (s : Schema) (key : String) (id : Json) {tail : Statement}
    (apart : Apart tail) (spaced : Spaced tail) : Spaced (keyClause s key id ++ tail) :=
  ⟨by decide, by exact (by decide : isApart " = " = true), by decide, apart, spaced⟩

/-- An update with fixed texts before and after the comparison with the key. -/
theorem assigned_spec (s : Schema) (key : String) (id : Json) (cells : List (Column × Json))
    {between tail : Statement} (d : Dialect) (apart : Apart between) (spaced : Spaced between)
    (fixed : Fixed between) (unnamed : names between = []) (apart_tail : Apart tail)
    (spaced_tail : Spaced tail) (fixed_tail : Fixed tail) (unnamed_tail : names tail = []) :
    let st := .text "UPDATE " :: .name s.table :: .text " SET " ::
      (assignmentList cells ++ (between ++ (keyClause s key id ++ tail)))
    Spaced st ∧ names st = s.table :: ((cells.map fun cell => cell.1.field) ++ [key]) ∧
      params d st = (cells.map fun cell => coerceWrite cell.1.type cell.2 d.booleans) ++
        [coerceWrite (keyType s key) id d.booleans] ∧
      owners none st = (cells.map fun cell => some cell.1.field) ++ [some key] := by
  obtain ⟨assigned, assigned_names, assigned_params, assigned_owners⟩ :=
    assignmentList_spec cells d
  have where_text : Apart (keyClause s key id ++ tail) := by
    exact (by decide : isApart " WHERE " = true)
  have filter : Spaced (keyClause s key id ++ tail) := spaced_keyClause s key id apart_tail spaced_tail
  have ending : Spaced (between ++ (keyClause s key id ++ tail)) :=
    spaced.append filter where_text
  refine ⟨⟨by decide, by exact (by decide : isApart " SET " = true), by decide,
    assigned.append ending (apart.append where_text)⟩, ?_, ?_, ?_⟩
  · have all : names (assignmentList cells ++ (between ++ (keyClause s key id ++ tail))) =
        (cells.map fun cell => cell.1.field) ++ [key] := by
      rw [names_append, names_append, names_append, assigned_names, unnamed, unnamed_tail]
      rfl
    exact congrArg (s.table :: ·) all
  · rw [params_text, params_name, params_text, params_append, params_append, params_append,
      assigned_params, fixed.params, fixed_tail.params]
    rfl
  · have all (last : Option String) :
        owners last (assignmentList cells ++ (between ++ (keyClause s key id ++ tail))) =
          (cells.map fun cell => some cell.1.field) ++ [some key] := by
      rw [owners_append, owners_append, owners_append, assigned_owners, fixed.owners,
        fixed_tail.owners]
      rfl
    exact all (some s.table)

/-- Such an update is read and bound: the columns with their values, the key last. -/
theorem assigned_compile {s : Schema} {key : String} {id : Json} {cells : List (Column × Json)}
    {st : Statement} (d : Dialect) (between tail : Statement)
    (written : st = .text "UPDATE " :: .name s.table :: .text " SET " ::
      (assignmentList cells ++ (between ++ (keyClause s key id ++ tail))))
    (apart : Apart between) (spaced : Spaced between) (fixed : Fixed between)
    (unnamed : names between = []) (apart_tail : Apart tail) (spaced_tail : Spaced tail)
    (fixed_tail : Fixed tail) (unnamed_tail : names tail = []) :
    (st.compile d).Reads d (s.table :: ((cells.map fun cell => cell.1.field) ++ [key])) ∧
      (st.compile d).Binds d
        ((cells.map fun cell => (cell.1.field, coerceWrite cell.1.type cell.2 d.booleans)) ++
          [keyBinding d s key id]) := by
  obtain ⟨all, named, values, owned⟩ := assigned_spec s key id cells d apart spaced fixed unnamed
    apart_tail spaced_tail fixed_tail unnamed_tail
  rw [← written] at all named values owned
  have reads := all.reads d
  rw [named] at reads
  refine ⟨reads, all.binds ?_ ?_⟩
  · rw [values]
    simp [keyBinding]
  · rw [owned]
    simp [keyBinding]

theorem update_spec {s : Schema} {id : Json} {data : Record} {st : Statement} {style : Returning}
    (h : update style s id data = .ok st) (d : Dialect) :
    ∃ key, s.primaryKeyField = .ok key ∧
      (st.compile d).Reads d
        (s.table :: (((updated s key data).map fun cell => cell.1.field) ++ [key])) ∧
      (st.compile d).Binds d
        (((updated s key data).map fun cell =>
          (cell.1.field, coerceWrite cell.1.type cell.2 d.booleans)) ++
          [keyBinding d s key id]) := by
  obtain ⟨key, hk, h⟩ := Outcome.bind_eq_ok.1 h
  refine ⟨key, hk, ?_⟩
  cases empty : (updated s key data).isEmpty with
  | true => simp [empty, throw, throwThe, MonadExceptOf.throw, bind, Except.bind] at h
  | false =>
      simp only [empty, Bool.false_eq_true, if_false] at h
      -- the styles differ in what stands before and after the comparison with the key
      cases style with
      | clause =>
          refine assigned_compile d [] [.text " RETURNING *"] ?_ trivial trivial fixed_nil rfl
            (by exact (by decide : isApart " RETURNING *" = true)) ⟨by decide, trivial⟩
            (fixed_text " RETURNING *") rfl
          simp only [pure, Except.pure, Except.ok.injEq] at h
          rw [← h]
          simp [assignmentList, keyClause]
      | output =>
          refine assigned_compile d [.text " OUTPUT INSERTED.*"] [] ?_
            (by exact (by decide : isApart " OUTPUT INSERTED.*" = true)) ⟨by decide, trivial⟩
            (fixed_text " OUTPUT INSERTED.*") rfl trivial trivial fixed_nil rfl
          simp only [pure, Except.pure, Except.ok.injEq] at h
          rw [← h]
          simp [assignmentList, keyClause]
      | reselect =>
          refine assigned_compile d [] [] ?_ trivial trivial fixed_nil rfl trivial trivial fixed_nil
            rfl
          simp only [pure, Except.pure, Except.ok.injEq] at h
          rw [← h]
          simp [assignmentList, keyClause]

theorem delete_spec {s : Schema} {id : Json} {st : Statement} (h : delete s id = .ok st)
    (d : Dialect) :
    ∃ key, s.primaryKeyField = .ok key ∧ (st.compile d).Reads d [s.table, key] ∧
      (st.compile d).Binds d [keyBinding d s key id] := by
  obtain ⟨key, hk, h⟩ := Outcome.bind_eq_ok.1 h
  simp only [pure, Except.pure, Except.ok.injEq] at h
  subst h
  have filter : Spaced (keyClause s key id ++ []) := spaced_keyClause s key id trivial trivial
  have spaced : Spaced (.text "DELETE FROM " :: .name s.table :: keyClause s key id) :=
    ⟨by decide, by exact (by decide : isApart " WHERE " = true), filter⟩
  exact ⟨key, hk, spaced.reads d, spaced.binds rfl rfl⟩

theorem softDelete_spec {s : Schema} {id : Json} {column timestamp : String} {st : Statement}
    (h : softDelete s id column timestamp = .ok st) (d : Dialect) :
    ∃ key, s.primaryKeyField = .ok key ∧ (st.compile d).Reads d [s.table, column, key] ∧
      (st.compile d).Binds d
        [(column, coerceWrite .string (.string timestamp) d.booleans), keyBinding d s key id] := by
  obtain ⟨key, hk, h⟩ := Outcome.bind_eq_ok.1 h
  refine ⟨key, hk, ?_⟩
  split at h
  · simp only [pure, Except.pure, Except.ok.injEq] at h
    subst h
    have filter : Spaced (keyClause s key id ++ []) := spaced_keyClause s key id trivial trivial
    have stamp : Spaced (.name column :: .text " = " ::
        .slot .string (.string timestamp) :: keyClause s key id) :=
      ⟨by exact (by decide : isApart " = " = true), by decide,
        by exact (by decide : isApart " WHERE " = true), filter⟩
    have spaced : Spaced (.text "UPDATE " :: .name s.table :: .text " SET " :: .name column ::
        .text " = " :: .slot .string (.string timestamp) :: keyClause s key id) :=
      ⟨by decide, by exact (by decide : isApart " SET " = true), by decide, stamp⟩
    exact ⟨spaced.reads d, spaced.binds rfl rfl⟩
  · simp [throw, throwThe, MonadExceptOf.throw] at h

theorem selectByKey_spec {d : Dialect} {s : Schema} {id : Option Json} {st : Statement}
    (h : selectByKey d s id = .ok st) :
    ∃ key, s.primaryKeyField = .ok key ∧ (st.compile d).Reads d [s.table, s.table, key] ∧
      (st.compile d).Binds d (id.toList.map (keyBinding d s key)) := by
  obtain ⟨key, hk, h⟩ := Outcome.bind_eq_ok.1 h
  refine ⟨key, hk, ?_⟩
  have compared (target : Token) (end_spaced : Spaced [target]) :
      Spaced (.text "SELECT * FROM " :: .name s.table :: .text " WHERE " ::
        (qualified s.table key ++ [.text " = ", target])) := by
    refine ⟨by decide, by exact (by decide : isApart " WHERE " = true), by decide, ?_⟩
    rw [spaced_qualified]
    exact ⟨by exact (by decide : isApart " = " = true), by decide, end_spaced⟩
  cases id with
  | some id =>
      obtain rfl := Except.ok.inj h
      have spaced := compared (.slot (keyType s key) id) ⟨trivial, trivial⟩
      exact ⟨spaced.reads d, spaced.binds rfl rfl⟩
  | none =>
      -- only one dialect has an expression for the last generated key
      cases d with
      | mysql =>
          obtain rfl := Except.ok.inj h
          have spaced := compared (.text "LAST_INSERT_ID()") ⟨by decide, trivial⟩
          exact ⟨spaced.reads .mysql, spaced.binds rfl rfl⟩
      | postgres => simp [Dialect.lastInsertId, throw, throwThe, MonadExceptOf.throw,
          bind, Except.bind] at h
      | mssql => simp [Dialect.lastInsertId, throw, throwThe, MonadExceptOf.throw,
          bind, Except.bind] at h

theorem countMatching_spec {s : Schema} {field : String} {value : Json} {st : Statement}
    (h : countMatching s field value none = .ok st) (d : Dialect) :
    (st.compile d).Reads d st.names ∧
      (st.compile d).Binds d (bindings d s [] ⟨field, .equals, value⟩) := by
  have counted : count s [] [⟨field, .equals, value⟩] = .ok st := h
  have spec := count_spec counted d
  rw [List.flatMap_singleton] at spec
  exact spec

theorem countMatching_excluding_spec {s : Schema} {field : String} {value id : Json}
    {st : Statement} (h : countMatching s field value (some id) = .ok st) (d : Dialect) :
    ∃ key, s.primaryKeyField = .ok key ∧ (st.compile d).Reads d st.names ∧
      (st.compile d).Binds d (bindings d s [] ⟨field, .equals, value⟩ ++
        bindings d s [] ⟨key, .notEquals, id⟩) := by
  obtain ⟨key, hk, h⟩ := Outcome.bind_eq_ok.1 h
  have spec := count_spec h d
  rw [List.flatMap_cons, List.flatMap_singleton] at spec
  exact ⟨key, hk, spec⟩

/-! ### Every statement -/

/-- **Every statement reads as intended.**  Each name decodes to the name that was quoted, the marks
are `1, …, n` for `n` values, and the value of a mark is the coerced one of the column beside it. -/
theorem compile_reads_and_binds (d : Dialect) (s : Schema) :
    (∀ fields nodes cs sort window st, select s fields nodes cs sort window = .ok st →
      (st.compile d).Reads d st.names ∧
        (st.compile d).Binds d (cs.flatMap (bindings d s nodes))) ∧
    (∀ nodes cs st, count s nodes cs = .ok st →
      (st.compile d).Reads d st.names ∧
        (st.compile d).Binds d (cs.flatMap (bindings d s nodes))) ∧
    (∀ field value st, countMatching s field value none = .ok st →
      (st.compile d).Reads d st.names ∧
        (st.compile d).Binds d (bindings d s [] ⟨field, .equals, value⟩)) ∧
    (∀ field value id st, countMatching s field value (some id) = .ok st →
      ∃ key, s.primaryKeyField = .ok key ∧ (st.compile d).Reads d st.names ∧
        (st.compile d).Binds d (bindings d s [] ⟨field, .equals, value⟩ ++
          bindings d s [] ⟨key, .notEquals, id⟩)) ∧
    (∀ style data, let q := (insert style s data).compile d
      q.Reads d (s.table :: (inserted s data).map fun cell => cell.1.field) ∧
        q.params = (inserted s data).map fun cell =>
          coerceWrite cell.1.type cell.2 d.booleans) ∧
    (∀ id st, selectByKey d s id = .ok st →
      ∃ key, s.primaryKeyField = .ok key ∧ (st.compile d).Reads d [s.table, s.table, key] ∧
        (st.compile d).Binds d (id.toList.map (keyBinding d s key))) ∧
    (∀ style id data st, update style s id data = .ok st →
      ∃ key, s.primaryKeyField = .ok key ∧
        (st.compile d).Reads d
          (s.table :: (((updated s key data).map fun cell => cell.1.field) ++ [key])) ∧
        (st.compile d).Binds d
          (((updated s key data).map fun cell =>
            (cell.1.field, coerceWrite cell.1.type cell.2 d.booleans)) ++
            [keyBinding d s key id])) ∧
    (∀ id st, delete s id = .ok st →
      ∃ key, s.primaryKeyField = .ok key ∧ (st.compile d).Reads d [s.table, key] ∧
        (st.compile d).Binds d [keyBinding d s key id]) ∧
    (∀ id column timestamp st, softDelete s id column timestamp = .ok st →
      ∃ key, s.primaryKeyField = .ok key ∧ (st.compile d).Reads d [s.table, column, key] ∧
        (st.compile d).Binds d [(column, coerceWrite .string (.string timestamp) d.booleans),
          keyBinding d s key id]) := by
  refine ⟨fun _ _ _ _ _ _ h => select_spec h d, fun _ _ _ h => count_spec h d,
    fun _ _ _ h => countMatching_spec h d, fun _ _ _ _ h => countMatching_excluding_spec h d,
    fun style data => ?_, fun _ _ h => selectByKey_spec h, fun _ _ _ _ h => update_spec h d,
    fun _ _ h => delete_spec h d, fun _ _ _ _ h => softDelete_spec h d⟩
  obtain ⟨spaced, named, values⟩ := insert_spec style s data d
  have reads := spaced.reads d
  rw [named] at reads
  exact ⟨reads, values⟩

/-- A schema whose names hold delimiters and what looks like marks. -/
def awkward : Schema :=
  .ofColumns "a\"$1" [.serverKey "]@p1", .plain "b\"?" .string] []

theorem compile_reads_and_binds_awkward : ∃ st,
    update .clause awkward (.string "k") [("b\"?", .string "x")] = .ok st ∧
      (st.compile .postgres).Reads .postgres ["a\"$1", "b\"?", "]@p1"] ∧
      (st.compile .postgres).Binds .postgres
        [("b\"?", .string "x"), ("]@p1", .string "k")] := by
  obtain ⟨-, -, -, -, -, -, updates, -⟩ := compile_reads_and_binds .postgres awkward
  obtain ⟨key, hk, reads, binds⟩ :=
    updates .clause (.string "k") [("b\"?", .string "x")] _ rfl
  obtain rfl : "]@p1" = key := Except.ok.inj hk
  exact ⟨_, rfl, reads, binds⟩

end Statement

end DataAccess
