import DataAccess.Proofs.Sql.Placeholders
/-
**The tables of a read.**  The tables that a statement reads from stand after a few fixed words, and
each joined one is followed by the condition that ties it to the others.  They can be read off the
tokens of a statement again.

Main definitions:

* `Statement.sources` — the tables of a statement, each with the tables that its join condition
  mentions;
* `Statement.Quiet` — a statement without the words that a table stands after;
* `Statement.InScope` — no table is named twice, and each join is tied to a table before it.

Main results:

* `Statement.sources_select`, `Statement.sources_count` — a read names its base table and then the
  table of each node.
-/

set_option autoImplicit false

namespace DataAccess.Statement

/-! ### Reading the tables -/

/-- The fixed texts that the name of a table to read from stands after. -/
def sourceWords : List String := [" FROM ", "SELECT COUNT(*) AS total FROM ", " LEFT JOIN "]

/-- The tables of the columns that an equation at the start of a statement compares. -/
def equated : Statement → List String
  | .name left :: .text "." :: .name _ :: .text " = " :: .name right :: .text "." :: .name _ :: _ =>
    [left, right]
  | _ => []

/-- The tables that a join condition at the start of a statement mentions. -/
def mentioned : Statement → List String
  | .text " ON " :: rest => equated rest
  | _ => []

/-- The tables that a statement reads from, each with the tables its join condition mentions. -/
def sources : Statement → List (String × List String)
  | .text word :: .name table :: rest =>
    if sourceWords.contains word then (table, mentioned rest) :: sources rest else sources rest
  | _ :: rest => sources rest
  | [] => []

/-- Whether each joined table is new and tied to one of the tables before it. -/
def Tied (before : List String) : List (String × List String) → Prop
  | [] => True
  | (table, condition) :: rest =>
    table ∉ before ∧ (∃ other ∈ before, condition = [other, table] ∨ condition = [table, other]) ∧
      Tied (table :: before) rest

/-- No table is named twice, and the condition of each join mentions only the joined table and one
that is the base table or was joined before. -/
def InScope (s : Statement) : Prop :=
  match s.sources with
  | (base, condition) :: joined => condition = [] ∧ Tied [base] joined
  | [] => False

theorem inScope_iff_tied {s : Statement} {base : String} {joined : List (String × List String)}
    (h : s.sources = (base, []) :: joined) : s.InScope ↔ Tied [base] joined := by
  rw [InScope, h]
  simp only [true_and]

/-! ### Clauses that name no table to read from -/

/-- Whether the name of a table to read from stands after a token. -/
def isSource : Token → Bool
  | .text word => sourceWords.contains word
  | _ => false

/-- A statement without the words that a table stands after. -/
def Quiet (s : Statement) : Prop := ∀ t ∈ s, isSource t = false

theorem sources_name (ident : String) (rest : Statement) :
    sources (.name ident :: rest) = sources rest := rfl

theorem sources_skip {t : Token} (quiet : isSource t = false) (rest : Statement) :
    sources (t :: rest) = sources rest := by
  cases t with
  | text word =>
      have absent : sourceWords.contains word = false := quiet
      cases rest with
      | nil => rfl
      | cons u rest =>
          cases u with
          | name table => rw [sources, absent, if_neg Bool.false_ne_true, sources_name]
          | text s => rfl
          | slot type value => rfl
          | like => rfl
          | window limit offset ordered => rfl
  | name ident => rfl
  | slot type value => rfl
  | like => rfl
  | window limit offset ordered => rfl

theorem Quiet.sources_append {s : Statement} (quiet : Quiet s) (rest : Statement) :
    sources (s ++ rest) = sources rest := by
  induction s with
  | nil => rfl
  | cons t more ih =>
      rw [List.cons_append, sources_skip (quiet t List.mem_cons_self),
        ih fun u hu => quiet u (List.mem_cons_of_mem _ hu)]

theorem Quiet.sources {s : Statement} (quiet : Quiet s) : s.sources = [] := by
  have all := quiet.sources_append []
  rw [List.append_nil] at all
  exact all

theorem Quiet.append {s t : Statement} (hs : Quiet s) (ht : Quiet t) : Quiet (s ++ t) := by
  intro u hu
  rcases List.mem_append.1 hu with hu | hu
  · exact hs u hu
  · exact ht u hu

theorem Quiet.separated {separator : String} {parts : List Statement}
    (between : isSource (.text separator) = false) (h : ∀ p ∈ parts, Quiet p) :
    Quiet (separated separator parts) := by
  intro t ht
  rcases mem_separated ht with rfl | ⟨p, hp, ht⟩
  · exact between
  · exact h p hp t ht

theorem quiet_of_all {s : Statement} (h : s.all (fun t => !isSource t) = true) : Quiet s := by
  intro t ht
  have each := List.all_eq_true.1 h t ht
  simpa using each

theorem quiet_qualified (table column : String) : Quiet (qualified table column) :=
  quiet_of_all (by simp [qualified, isSource, sourceWords])

theorem quiet_aliased (table column other : String) : Quiet (aliased table column other) :=
  quiet_of_all (by simp [aliased, qualified, isSource, sourceWords])

theorem quiet_projection (s : Schema) (fields : Option (List String))
    (nodes : List RelationNode) : Quiet (projection s fields nodes) := by
  refine Quiet.separated (by decide) fun p hp => ?_
  rcases List.mem_append.1 hp with hp | hp
  · split at hp
    · rw [List.mem_singleton.1 hp]
      exact quiet_of_all (by simp [isSource, sourceWords])
    · obtain ⟨field, -, rfl⟩ := List.mem_map.1 hp
      exact quiet_aliased s.table field field
  · obtain ⟨n, -, hp⟩ := List.mem_flatMap.1 hp
    obtain ⟨field, -, rfl⟩ := List.mem_map.1 hp
    exact quiet_aliased n.table field _

theorem quiet_condition (table field : String) (type : ColumnType) (c : WhereCondition) :
    Quiet (condition (qualified table field) type c) := by
  have listed (operator constant : String) (ho : isSource (.text operator) = false)
      (hc : isSource (.text constant) = false) :
      Quiet (if c.values.isEmpty then [.text constant] else
        qualified table field ++ [.text operator] ++
          separated ", " (c.values.map fun v => [.slot type v]) ++ [.text ")"]) := by
    split
    · exact quiet_of_all (by simp [hc])
    · have slots : Quiet (separated ", " (c.values.map fun v => [.slot type v])) := by
        refine Quiet.separated (by decide) fun p hp => ?_
        obtain ⟨v, -, rfl⟩ := List.mem_map.1 hp
        exact quiet_of_all rfl
      exact (((quiet_qualified table field).append (quiet_of_all (by simp [ho]))).append
        slots).append (quiet_of_all rfl)
  cases h : c.operator <;> simp only [condition, h]
  case isIn => exact listed " IN (" "1 = 0" (by decide) (by decide)
  case notIn => exact listed " NOT IN (" "1 = 1" (by decide) (by decide)
  all_goals
    refine (quiet_qualified table field).append (quiet_of_all ?_)
    simp [isSource, sourceWords]

theorem quiet_conditions {s : Schema} {nodes : List RelationNode} {cs : List WhereCondition}
    {filter : Statement} (h : conditions s nodes cs = .ok filter) : Quiet filter := by
  obtain ⟨clauses, hc, h⟩ := Outcome.bind_eq_ok.1 h
  have each : ∀ p ∈ clauses, Quiet p := by
    intro p hp
    obtain ⟨c, -, hp⟩ := Outcome.of_mem_mapM hc hp
    obtain ⟨table, field, schema, column, -, -, rfl⟩ := resolved_ok hp
    exact quiet_condition table field column.type c
  simp only [pure, Except.pure, Except.ok.injEq] at h
  subst h
  split
  · exact quiet_of_all rfl
  · exact (quiet_of_all (by simp [isSource, sourceWords])).append
      (Quiet.separated (by decide) each)

theorem quiet_order (s : Schema) (sort : List SortCondition) : Quiet (order s sort) := by
  unfold order
  simp only
  split
  · exact quiet_of_all rfl
  · refine (quiet_of_all (by simp [isSource, sourceWords])).append
      (Quiet.separated (by decide) fun p hp => ?_)
    obtain ⟨c, -, rfl⟩ := List.mem_map.1 hp
    refine (quiet_qualified s.table c.column).append ?_
    cases c.direction <;> exact quiet_of_all (by decide)

/-! ### Reads -/

/-- The table of a node, with the tables that its join condition mentions. -/
def joinedSource (n : RelationNode) : String × List String :=
  (n.table, [n.join.ownTable, n.join.table])

theorem sources_joins (nodes : List RelationNode) {rest : Statement} (quiet : Quiet rest) :
    sources (joins nodes ++ rest) = nodes.map joinedSource := by
  induction nodes with
  | nil => exact quiet.sources
  | cons n more ih =>
      have unfolded : joins (n :: more) ++ rest = .text " LEFT JOIN " :: .name n.table ::
          ([.text " ON ", .name n.join.ownTable, .text ".", .name n.join.ownColumn, .text " = ",
            .name n.join.table, .text ".", .name n.join.column] ++ (joins more ++ rest)) := by
        simp [joins, qualified]
      have word : sourceWords.contains " LEFT JOIN " = true := by decide
      have edge : Quiet [.text " ON ", .name n.join.ownTable, .text ".", .name n.join.ownColumn,
          .text " = ", .name n.join.table, .text ".", .name n.join.column] :=
        quiet_of_all (by simp [isSource, sourceWords])
      rw [unfolded, sources, if_pos word, edge.sources_append, ih]
      rfl

/-- The base table and the joins behind one of the words that a table stands after. -/
theorem sources_from {word table : String} (isWord : sourceWords.contains word = true)
    (nodes : List RelationNode) {before after : Statement} (hb : Quiet before) (ha : Quiet after)
    (start : mentioned (joins nodes ++ after) = []) :
    sources (before ++ (.text word :: .name table :: (joins nodes ++ after))) =
      (table, []) :: nodes.map joinedSource := by
  rw [hb.sources_append, sources, if_pos isWord, start, sources_joins nodes ha]

/-- A statement that does not begin like a join condition. -/
def Unconditioned (s : Statement) : Prop := s.head? ≠ some (.text " ON ")

theorem Unconditioned.mentioned {s : Statement} (h : Unconditioned s) : s.mentioned = [] := by
  unfold Statement.mentioned
  split
  · exact absurd rfl h
  · rfl

theorem Unconditioned.append {s t : Statement} (hs : Unconditioned s) (ht : Unconditioned t) :
    Unconditioned (s ++ t) := by
  cases s with
  | nil => exact ht
  | cons a rest => exact hs

theorem unconditioned_text {word : String} (h : word ≠ " ON ") (rest : Statement) :
    Unconditioned (.text word :: rest) := by
  simpa [Unconditioned] using h

theorem unconditioned_joins (nodes : List RelationNode) : Unconditioned (joins nodes) := by
  cases nodes with
  | nil => simp [Unconditioned, joins]
  | cons n more => exact unconditioned_text (by decide) _

theorem unconditioned_conditions {s : Schema} {nodes : List RelationNode}
    {cs : List WhereCondition} {filter : Statement} (h : conditions s nodes cs = .ok filter) :
    Unconditioned filter := by
  obtain ⟨clauses, -, h⟩ := Outcome.bind_eq_ok.1 h
  rw [← Except.ok.inj h]
  split
  · simp [Unconditioned]
  · exact unconditioned_text (by decide) _

theorem unconditioned_order (s : Schema) (sort : List SortCondition) :
    Unconditioned (order s sort) := by
  unfold order
  simp only
  split
  · simp [Unconditioned]
  · exact unconditioned_text (by decide) _

theorem sources_select {s : Schema} {fields : Option (List String)} {nodes : List RelationNode}
    {cs : List WhereCondition} {sort : List SortCondition} {window : Option Window}
    {st : Statement} (h : select s fields nodes cs sort window = .ok st) :
    st.sources = (s.table, []) :: nodes.map joinedSource := by
  obtain ⟨filter, hf, h⟩ := Outcome.bind_eq_ok.1 h
  have paged (ordered : Bool) : Quiet (page window ordered) ∧
      Unconditioned (page window ordered) := by
    cases window with
    | none => exact ⟨quiet_of_all rfl, by simp [Unconditioned, page]⟩
    | some w =>
        exact ⟨quiet_of_all (by simp [page, isSource, sourceWords]),
          unconditioned_text (by decide) _⟩
  have clauses : st = (.text "SELECT " :: projection s fields nodes) ++ (.text " FROM " ::
      .name s.table :: (joins nodes ++ (filter ++
        (order s sort ++ page window (!(order s sort).isEmpty))))) := by
    rw [← Except.ok.inj h]
    cases window <;> simp [page]
  obtain ⟨quiet_page, unconditioned_page⟩ := paged (!(order s sort).isEmpty)
  have selected : Quiet [.text "SELECT "] := quiet_of_all (by decide)
  have projected : Quiet (.text "SELECT " :: projection s fields nodes) :=
    selected.append (quiet_projection s fields nodes)
  have after : Unconditioned (joins nodes ++ (filter ++
      (order s sort ++ page window (!(order s sort).isEmpty)))) :=
    (unconditioned_joins nodes).append ((unconditioned_conditions hf).append
      ((unconditioned_order s sort).append unconditioned_page))
  rw [clauses]
  exact sources_from (by decide) nodes projected
    ((quiet_conditions hf).append ((quiet_order s sort).append quiet_page)) after.mentioned

theorem sources_count {s : Schema} {nodes : List RelationNode} {cs : List WhereCondition}
    {st : Statement} (h : count s nodes cs = .ok st) :
    st.sources = (s.table, []) :: nodes.map joinedSource := by
  obtain ⟨filter, hf, h⟩ := Outcome.bind_eq_ok.1 h
  have clauses : st = [] ++ (.text "SELECT COUNT(*) AS total FROM " :: .name s.table ::
      (joins nodes ++ filter)) := by
    rw [← Except.ok.inj h]
    simp
  have after : Unconditioned (joins nodes ++ filter) :=
    (unconditioned_joins nodes).append (unconditioned_conditions hf)
  rw [clauses]
  exact sources_from (by decide) nodes (quiet_of_all rfl) (quiet_conditions hf) after.mentioned

end DataAccess.Statement
