import DataAccess.Proofs.Query.Merging
import DataAccess.Proofs.Query.Requests
/-
**What an accepted request still lacks.**  A request is checked while it is read, and every name in
its statements is looked up again when they are compiled.  The checks cover all names but one kind: a
condition that takes no value is not checked on a joined table.  So an accepted request compiles
exactly when the columns of these conditions exist.

Main definitions:

* `WhereCondition.namesColumn` — the column of a condition is one of the table it addresses;
* `WhereCondition.Checked` — what a checked condition is known to name;
* `QueryDraft.Checked`, `Query.Checked` — what is known of a request while and after it is read.

Main results:

* `Statement.conditions_iff` — conditions compile exactly when they name columns;
* `SchemaRegistry.checked_parseQuery` — what is known of an accepted request;
* `SchemaRegistry.parseQuery_compiles_iff` — **an accepted request compiles exactly when its
  conditions without a value name columns of the tables they join**.
-/

set_option autoImplicit false

namespace DataAccess

open RelationNode

/-! ### Checks of a schema -/

theorem WhereCondition.isDeep_iff {c : WhereCondition} :
    c.isDeep = true ↔ ∃ path field, c.path? = some (path, field) := by
  rw [isDeep, List.contains_iff_mem]
  cases cut : Text.cutLast '.' c.column with
  | none =>
      have free := Text.cutLast_eq_none_iff.1 cut
      simp [path?, cut, free]
  | some pieces =>
      obtain ⟨path, field⟩ := pieces
      have dotted : '.' ∈ c.column.toList := by
        by_contra free
        rw [Text.cutLast_eq_none_iff.2 free] at cut
        exact absurd cut (by simp)
      simp [path?, cut, dotted]

/-- A condition on the base table has no path. -/
theorem WhereCondition.path?_of_flat {c : WhereCondition} (flat : c.isDeep = false) :
    c.path? = none := by
  by_contra cut
  obtain ⟨pieces, cut⟩ := Option.ne_none_iff_exists'.1 cut
  exact Bool.eq_false_iff.1 flat (isDeep_iff.2 ⟨pieces.1, pieces.2, cut⟩)

namespace Schema

/-- A value is accepted when its column accepts it. -/
theorem validateValue_eq_ok {s : Schema} {field : String} {v n : Json} :
    s.validateValue field v = .ok n ↔
      ∃ column, s.column? field = some column ∧ checkValue column v = .ok n := by
  rw [validateValue]
  cases s.column? field with
  | none => simp
  | some column =>
      simp only [Option.some.injEq, exists_eq_left']
      cases checkValue column v <;> simp [Except.mapError]

theorem hasColumn_of_validateValue {s : Schema} {field : String} {v checked : Json}
    (h : s.validateValue field v = .ok checked) : s.hasColumn field = true := by
  obtain ⟨column, found, -⟩ := validateValue_eq_ok.1 h
  rw [hasColumn, found]
  rfl

/-- An operand is only checked together with its column: there must be an operand. -/
theorem hasColumn_of_checkOperand {s : Schema} {field : String} {c : WhereCondition} {value : Json}
    (valued : c.operator.isUnary = false) (some_value : c.values ≠ [])
    (h : s.checkOperand field c = .ok value) : s.hasColumn field = true := by
  rw [checkOperand] at h
  have listed (h : (c.values.mapM (s.validateValue field)).map Json.array = .ok value) :
      s.hasColumn field = true := by
    obtain ⟨items, checked, -⟩ := Outcome.map_eq_ok.1 h
    cases values : c.values with
    | nil => exact absurd values some_value
    | cons first rest =>
        rw [values] at checked
        obtain ⟨_, _, first_checked, -⟩ := Outcome.mapM_cons_eq_ok.1 checked
        exact hasColumn_of_validateValue first_checked
  cases operator : c.operator with
  | null | notNull => exact absurd valued (by rw [operator]; simp [Operator.isUnary])
  | isIn | notIn =>
      rw [operator] at h
      exact listed h
  | search =>
      simp only [operator] at h
      split at h
      · assumption
      · exact absurd h (by simp)
  | equals | notEquals | gt | gte | lt | lte =>
      rw [operator] at h
      exact hasColumn_of_validateValue h

theorem validateCondition_eq_ok {s : Schema} {c c' : WhereCondition} :
    s.validateCondition c = .ok c' ↔ s.hasColumn c.column = true ∧
      ∃ value, s.checkOperand c.column c = .ok value ∧ { c with value } = c' := by
  rw [validateCondition]
  split
  · next known => exact Outcome.map_eq_ok.trans (and_iff_right known).symm
  · next unknown => simp [unknown]

theorem hasColumn_of_validateCondition {s : Schema} {c checked : WhereCondition}
    (h : s.validateCondition c = .ok checked) : s.hasColumn c.column = true :=
  (validateCondition_eq_ok.1 h).1

/-- Plain fields are columns. -/
theorem hasColumn_of_validateFields {s : Schema} {fields plain deep : List String}
    (h : s.validateFields fields = .ok (plain, deep)) :
    ∀ field ∈ plain, s.hasColumn field = true := by
  obtain ⟨known, rfl, -⟩ := validateFields_iff.1 h
  intro field member
  obtain ⟨there, flat⟩ := List.mem_filter.1 (List.mem_eraseDups.1 member)
  exact known field there (by simpa using flat)

/-- Sort clauses are columns of the base table. -/
theorem hasColumn_of_parseSort {s : Schema} {raw : String} {clauses : List SortCondition}
    (h : s.parseSort raw = .ok clauses) :
    ∀ clause ∈ clauses, clause.isDeep = false ∧ s.hasColumn clause.column = true := by
  obtain ⟨tokens, parsed, rest⟩ := Outcome.bind_eq_ok.1 h
  obtain rfl := Except.ok.inj rest
  intro clause member
  rw [List.mem_filterMap] at member
  obtain ⟨token, there, same⟩ := member
  obtain ⟨text, -, read⟩ := Outcome.of_mem_mapM parsed there
  obtain rfl : token = some clause := same
  have known {column : String} {direction : Direction}
      (h : (if column.toList.contains '.' then .ok none
        else if s.hasColumn column then .ok (some ⟨column, direction⟩)
        else .error (.unknownField column s.table) : Outcome (Option SortCondition)) =
          .ok (some clause)) :
      clause.isDeep = false ∧ s.hasColumn clause.column = true := by
    split at h
    · exact absurd h (by simp)
    · next flat =>
      split at h
      · next here =>
        obtain rfl := Option.some.inj (Except.ok.inj h)
        exact ⟨by simpa [SortCondition.isDeep] using flat, here⟩
      · exact absurd h (by simp)
  rw [parseSortToken] at read
  split at read
  · split at read
    · exact known read
    · split at read
      · exact known read
      · split at read
        · exact absurd read (by simp)
        · exact absurd read (by simp)
  · exact absurd read (by simp)

end Schema

/-! ### Columns that are named -/

/-- Whether the column of a condition is one of the table that the condition addresses. -/
def WhereCondition.namesColumn (s : Schema) (nodes : List RelationNode) (c : WhereCondition) :
    Bool :=
  match c.path? with
  | none => s.hasColumn c.column
  | some (path, field) => (find nodes path).any fun n => n.schema.hasColumn field

namespace Statement

variable {s : Schema} {nodes : List RelationNode}

/-- A condition compiles exactly when it names a column. -/
theorem resolved_iff {c : WhereCondition} :
    (∃ clause, resolved s nodes c = .ok clause) ↔ c.namesColumn s nodes = true := by
  have column (table field : String) (schema : Schema)
      (addressed : address s nodes c = .ok (table, field, schema)) :
      (∃ clause, resolved s nodes c = .ok clause) ↔ schema.hasColumn field = true := by
    rw [resolved, addressed, Schema.hasColumn]
    cases found : schema.column? field with
    | none => simp [bind, Except.bind, found, throw, throwThe, MonadExceptOf.throw]
    | some column => simp [bind, Except.bind, found, pure, Except.pure]
  rw [WhereCondition.namesColumn]
  cases cut : c.path? with
  | none => exact column s.table c.column s (by rw [address, cut])
  | some pieces =>
      obtain ⟨path, field⟩ := pieces
      cases found : find nodes path with
      | none => simp [resolved, address, cut, found, bind, Except.bind]
      | some n =>
          rw [column n.table field n.schema (by simp only [address, cut, found])]
          simp [found]

/-- Conditions compile exactly when each of them names a column. -/
theorem conditions_iff {cs : List WhereCondition} :
    (∃ filter, conditions s nodes cs = .ok filter) ↔ ∀ c ∈ cs, c.namesColumn s nodes = true := by
  have all : (∃ clauses, cs.mapM (resolved s nodes) = .ok clauses) ↔
      ∀ c ∈ cs, c.namesColumn s nodes = true :=
    Outcome.exists_mapM_eq_ok_iff.trans (forall₂_congr fun c _ => resolved_iff)
  rw [← all]
  exact Outcome.exists_bind_iff fun clauses => ⟨_, rfl⟩

/-- A count compiles exactly when its conditions name columns. -/
theorem count_iff {cs : List WhereCondition} :
    (∃ st, count s nodes cs = .ok st) ↔ ∀ c ∈ cs, c.namesColumn s nodes = true := by
  rw [← conditions_iff]
  exact Outcome.exists_bind_iff fun filter => ⟨_, rfl⟩

/-- A read compiles exactly when its conditions name columns. -/
theorem select_iff {fields : Option (List String)} {cs : List WhereCondition}
    {sort : List SortCondition} {window : Option Window} :
    (∃ st, select s fields nodes cs sort window = .ok st) ↔ ∀ c ∈ cs, c.namesColumn s nodes = true := by
  rw [← conditions_iff]
  exact Outcome.exists_bind_iff fun filter => ⟨_, rfl⟩

end Statement

/-! ### Checked requests -/

/-- What the checks of a request find out about a condition: on the base table its column exists; on
a joined table there is a node, and its column exists unless the condition takes no value. -/
def WhereCondition.Checked (s : Schema) (nodes : List RelationNode) (c : WhereCondition) : Prop :=
  match c.path? with
  | none => s.hasColumn c.column = true
  | some (path, field) => ∃ n ∈ nodes, n.table = lastHop path ∧
      (c.operator.isUnary = false → n.schema.hasColumn field = true)

/-- Nodes that come later do not take away what was found out. -/
theorem WhereCondition.Checked.kept {s : Schema} {nodes nodes' : List RelationNode}
    {c : WhereCondition} (checked : c.Checked s nodes) (kept : Kept nodes nodes') :
    c.Checked s nodes' := by
  rw [Checked] at checked ⊢
  cases cut : c.path? with
  | none =>
      rw [cut] at checked
      exact checked
  | some pieces =>
      rw [cut] at checked
      obtain ⟨n, member, table_eq, known⟩ := checked
      obtain ⟨n', member', same⟩ := kept.exists_mem member
      refine ⟨n', member', (congrArg Prod.fst same).trans table_eq, ?_⟩
      have schemas : n'.schema = n.schema := congrArg (fun e => e.2.2) same
      rwa [schemas]

/-- A draft whose fields and sort clauses are columns, and whose conditions hold texts. -/
structure QueryDraft.Checked (s : Schema) (d : QueryDraft) : Prop where
  fields : ∀ field ∈ d.fields.getD [], s.hasColumn field = true
  sort : ∀ clause ∈ d.sort, clause.isDeep = false ∧ s.hasColumn clause.column = true
  texts : ∀ c ∈ d.conditions, ∃ text, c.value = .string text

/-- A request whose fields and sort clauses are columns, whose nodes are merged, and whose conditions
were checked. -/
structure Query.Checked (s : Schema) (q : Query) : Prop where
  fields : ∀ field ∈ q.fields.getD [], s.hasColumn field = true
  sort : ∀ clause ∈ q.sort, clause.isDeep = false ∧ s.hasColumn clause.column = true
  relations : Merged q.relations
  conditions : ∀ c ∈ q.conditions, c.Checked s q.relations

/-- A checked condition names a column, unless it takes no value and addresses a joined table. -/
theorem WhereCondition.Checked.names {s : Schema} {nodes : List RelationNode}
    {c : WhereCondition} (checked : c.Checked s nodes) (merged : Merged nodes)
    (valued : c.isDeep = false ∨ c.operator.isUnary = false) : c.namesColumn s nodes = true := by
  rw [Checked] at checked
  rw [namesColumn]
  cases cut : c.path? with
  | none =>
      rw [cut] at checked
      exact checked
  | some pieces =>
      obtain ⟨path, field⟩ := pieces
      rw [cut] at checked
      obtain ⟨n, member, table_eq, known⟩ := checked
      have joined : lastHop path ∈ nodes.map table := by
        rw [← table_eq]
        exact List.mem_map_of_mem member
      obtain ⟨k, addressed⟩ := merged.addresses joined
      obtain rfl := addressed.unique n member table_eq
      change (find nodes path).any (fun n => n.schema.hasColumn field) = true
      rw [addressed.found, Option.any_some]
      refine known ?_
      rcases valued with flat | valued
      · rw [isDeep_iff.2 ⟨path, field, cut⟩] at flat
        exact absurd flat (by simp)
      · exact valued

namespace WhereCondition

theorem value_ofParam (name text : String) : (ofParam name text).value = .string text := by
  rw [ofParam]
  split <;> rfl

/-- A text is a list of at least one value. -/
theorem values_ne_nil {c : WhereCondition} {text : String} (h : c.value = .string text) :
    c.values ≠ [] := by
  rw [values, h, listValues, ne_eq, List.map_eq_nil_iff]
  exact Text.splitOn_ne_nil ',' text

end WhereCondition

namespace SchemaRegistry

open Resolving

variable {σ : Type} {r : SchemaRegistry (StateM σ)} {l : QueryLimits} {s : Schema}

/-! ### One parameter, one condition -/

/-- A parameter that is read leaves a checked draft and merged nodes. -/
theorem checked_readParam {d d' : QueryDraft} {p : String × String}
    {nodes nodes' : List RelationNode} {w w' : σ} (checked : d.Checked s) (merged : Merged nodes)
    (h : Returns (r.readParam l s d p) nodes w d' nodes' w') : d'.Checked s ∧ Merged nodes' := by
  cases returns_readParam h with
  | fields valid resolved =>
      refine ⟨⟨?_, checked.sort, checked.texts⟩, Returns.forM Merged ?_ merged resolved⟩
      · intro field member
        rw [QueryDraft.getD_fields_project] at member
        rcases List.mem_append.1 member with member | member
        · exact checked.fields field member
        · exact Schema.hasColumn_of_validateFields valid field member
      · intro field ns v u ns' v' merged run
        exact ((r.ends_resolveField s field merged).returns run).1
  | relations resolved =>
      refine ⟨checked, Returns.forM Merged ?_ merged resolved⟩
      intro path ns v u ns' v' merged run
      exact ((r.ends_resolveRelation s path merged).returns run).1
  | sort parsed =>
      refine ⟨⟨checked.fields, ?_, checked.texts⟩, merged⟩
      intro clause member
      rcases List.mem_append.1 member with member | member
      · exact checked.sort clause member
      · exact Schema.hasColumn_of_parseSort parsed clause member
  | limit | offset | page => exact ⟨⟨checked.fields, checked.sort, checked.texts⟩, merged⟩
  | @condition name value _ =>
      refine ⟨⟨checked.fields, checked.sort, ?_⟩, merged⟩
      intro c member
      rcases List.mem_append.1 member with member | member
      · exact checked.texts c member
      · rw [List.mem_singleton.1 member]
        exact ⟨value, WhereCondition.value_ofParam name value⟩

/-- A condition that passes its check is a checked condition. -/
theorem returns_validateWhere {c c' : WhereCondition} {text : String}
    {nodes nodes' : List RelationNode} {w w' : σ} (value : c.value = .string text)
    (merged : Merged nodes) (h : Returns (r.validateWhere s c) nodes w c' nodes' w') :
    Merged nodes' ∧ Kept nodes nodes' ∧ c'.Checked s nodes' := by
  rw [validateWhere] at h
  split at h
  · obtain ⟨merged', kept, found⟩ := (r.ends_resolveWhere s c merged).returns h
    obtain ⟨path, field, n, cut, member, table_eq, operand, checked, rfl⟩ := found c' rfl
    have cut' : WhereCondition.path? { c with value := operand } = some (path, field) := cut
    refine ⟨merged', kept, ?_⟩
    rw [WhereCondition.Checked, cut']
    refine ⟨n, member, table_eq, ?_⟩
    intro valued
    have valued' : c.operator.isUnary = false := valued
    exact Schema.hasColumn_of_checkOperand valued' (WhereCondition.values_ne_nil value) checked
  · next flat =>
    obtain ⟨valid, rfl, rfl⟩ := returns_liftExcept.1 h
    obtain ⟨column, -⟩ := Schema.validateCondition_column valid
    have uncut : c'.path? = none := by
      rw [WhereCondition.path?, column]
      exact WhereCondition.path?_of_flat (Bool.eq_false_iff.2 flat)
    refine ⟨merged, .refl nodes, ?_⟩
    rw [WhereCondition.Checked, uncut, column]
    exact Schema.hasColumn_of_validateCondition valid

/-- Conditions that pass their checks one after another are checked conditions. -/
theorem returns_validateAll {cs cs' : List WhereCondition} {nodes nodes' : List RelationNode}
    {w w' : σ} (texts : ∀ c ∈ cs, ∃ text, c.value = .string text) (merged : Merged nodes)
    (h : Returns (cs.mapM (r.validateWhere s)) nodes w cs' nodes' w') :
    Merged nodes' ∧ Kept nodes nodes' ∧ ∀ c ∈ cs', c.Checked s nodes' := by
  induction cs generalizing nodes w cs' with
  | nil =>
      obtain ⟨rfl, rfl, rfl⟩ := returns_pure.1 h
      exact ⟨merged, .refl _, by simp⟩
  | cons c rest ih =>
      rw [List.mapM_cons] at h
      obtain ⟨c', ns, v, first, h⟩ := returns_bind.1 h
      obtain ⟨others, ns', v', later, h⟩ := returns_bind.1 h
      obtain ⟨rfl, rfl, rfl⟩ := returns_pure.1 h
      obtain ⟨text, value⟩ := texts c List.mem_cons_self
      obtain ⟨merged', kept, checked⟩ := returns_validateWhere value merged first
      have texts' : ∀ c ∈ rest, ∃ text, c.value = .string text := by
        intro k member
        exact texts k (List.mem_cons_of_mem _ member)
      obtain ⟨merged'', kept', each⟩ := ih texts' merged' later
      refine ⟨merged'', kept.trans kept', ?_⟩
      intro k member
      rcases List.mem_cons.1 member with rfl | member
      · exact checked.kept kept'
      · exact each k member

/-! ### A whole request -/

/-- An accepted request is a checked one. -/
theorem checked_parseQuery {params : List (String × String)} {q : Query} {w w' : σ}
    (h : Action.Returns (r.parseQuery l s params) w q w') : q.Checked s := by
  obtain ⟨d, ns, u, conditions, relations, read, validated, rfl⟩ := returns_parseQuery h
  have start : (QueryDraft.start l).Checked s := ⟨by simp [QueryDraft.start],
    by simp [QueryDraft.start], by simp [QueryDraft.start]⟩
  obtain ⟨checked, merged⟩ : d.Checked s ∧ Merged ns := by
    refine Returns.foldlM (fun d ns => QueryDraft.Checked s d ∧ Merged ns) ?_ ⟨start, merged_nil⟩ read
    rintro d p ns v d' ns' v' ⟨checked, merged⟩ run
    exact checked_readParam checked merged run
  obtain ⟨merged', -, each⟩ := returns_validateAll checked.texts merged validated
  exact ⟨checked.fields, checked.sort, merged', each⟩

/-- **An accepted request compiles exactly when its conditions without a value name columns of the
tables they join.** -/
theorem parseQuery_compiles_iff {params : List (String × String)} {q : Query} {w w' : σ}
    (h : Action.Returns (r.parseQuery l s params) w q w') :
    q.Checked s ∧
    (∀ c ∈ q.conditions, c.isDeep = false ∨ c.operator.isUnary = false →
      c.namesColumn s q.relations = true) ∧
    ∀ d : Dialect,
      ((∃ compiled, Statement.compile d <$> Statement.count s q.relations q.conditions =
          .ok compiled) ↔
        ∀ c ∈ q.conditions, c.isDeep = true → c.operator.isUnary = true →
          c.namesColumn s q.relations = true) ∧
      ((∃ compiled, Statement.compile d <$> Statement.select s q.fields q.relations q.conditions
          q.sort (some ⟨q.limit, q.offset⟩) = .ok compiled) ↔
        ∀ c ∈ q.conditions, c.isDeep = true → c.operator.isUnary = true →
          c.namesColumn s q.relations = true) := by
  have checked := checked_parseQuery h
  have valued : ∀ c ∈ q.conditions, c.isDeep = false ∨ c.operator.isUnary = false →
      c.namesColumn s q.relations = true := by
    intro c member
    exact (checked.conditions c member).names checked.relations
  have all : (∀ c ∈ q.conditions, c.namesColumn s q.relations = true) ↔
      ∀ c ∈ q.conditions, c.isDeep = true → c.operator.isUnary = true →
        c.namesColumn s q.relations = true := by
    constructor
    · intro named c member _ _
      exact named c member
    · intro named c member
      cases deep : c.isDeep with
      | false => exact valued c member (.inl deep)
      | true =>
          cases unary : c.operator.isUnary with
          | false => exact valued c member (.inr unary)
          | true => exact named c member deep unary
  have compiled (d : Dialect) {x : Outcome Statement} :
      (∃ q, Statement.compile d <$> x = .ok q) ↔ ∃ st, x = .ok st := by
    constructor
    · rintro ⟨_, h⟩
      obtain ⟨st, compiled, -⟩ := Outcome.map_eq_ok.1 h
      exact ⟨st, compiled⟩
    · rintro ⟨st, rfl⟩
      exact ⟨_, rfl⟩
  refine ⟨checked, valued, ?_⟩
  intro d
  rw [compiled, compiled, Statement.count_iff, Statement.select_iff, all]
  exact ⟨Iff.rfl, Iff.rfl⟩

/-! ### People and their departments -/

/-- A request for people, with the limits of a configuration of defaults. -/
def askPeople (params : List (String × String)) : Action Unit Query :=
  offices.parseQuery (Config.ofBackend .postgres).limits people params

/-- People whose department has a name can be asked for and counted. -/
theorem compiles_department_name : ∃ q w,
    Action.Returns (askPeople [("fields", "id,department.name"), ("department.name[not_null]", ""),
      ("sort", "id.asc")]) () q w ∧
    ∀ d, (∃ compiled, Statement.compile d <$> Statement.count people q.relations q.conditions =
        .ok compiled) ∧
      ∃ compiled, Statement.compile d <$> Statement.select people q.fields q.relations
        q.conditions q.sort (some ⟨q.limit, q.offset⟩) = .ok compiled := by
  have accepted : ((askPeople [("fields", "id,department.name"), ("department.name[not_null]", ""),
      ("sort", "id.asc")]).runFrom ()).1.toOption.any
        (fun q => q.conditions.all fun c => c.namesColumn people q.relations) = true := by
    decide +kernel
  obtain ⟨q, w, run, named⟩ := Action.exists_returns accepted
  have each : ∀ c ∈ q.conditions, c.isDeep = true → c.operator.isUnary = true →
      c.namesColumn people q.relations = true := by
    intro c member _ _
    exact List.all_eq_true.1 named c member
  refine ⟨q, w, run, ?_⟩
  intro d
  obtain ⟨counts, selects⟩ := (parseQuery_compiles_iff run).2.2 d
  exact ⟨counts.2 each, selects.2 each⟩

/-- People whose department has no budget can be asked for, although departments have no such column,
and then neither be counted nor read. -/
theorem refused_department_budget : ∃ q w,
    Action.Returns (askPeople [("department.budget[null]", "")]) () q w ∧
    ∀ d, Statement.compile d <$> Statement.count people q.relations q.conditions =
        .error (.unknownField "budget" "department") ∧
      Statement.compile d <$> Statement.select people q.fields q.relations q.conditions q.sort
        (some ⟨q.limit, q.offset⟩) = .error (.unknownField "budget" "department") := by
  have accepted : ((askPeople [("department.budget[null]", "")]).runFrom ()).1.toOption.any
      (fun q => Outcome.failsWith (Statement.conditions people q.relations q.conditions)
        (.unknownField "budget" "department")) = true := by
    decide +kernel
  obtain ⟨q, w, run, refused⟩ := Action.exists_returns accepted
  rw [Outcome.failsWith_iff] at refused
  refine ⟨q, w, run, ?_⟩
  intro d
  rw [Statement.count, Statement.select, refused]
  exact ⟨rfl, rfl⟩

end SchemaRegistry

end DataAccess
