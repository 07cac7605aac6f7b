import DataAccess.Proofs.Document.Keys
import DataAccess.Proofs.Query.Normalising
import DataAccess.Proofs.Sql.ValueFree
/-
**Conditions before and after validation.**  Operands are brought to their types twice: strictly when a
condition is validated, and leniently when it is compiled.  What the first accepts and normalises comes
out of the second as if it had not been touched, for every operator, so a condition on the base table
compiles to the same statement, the same bound values and the same filter whether it was validated or
not.

Main definitions:

* `Operator.SameOperand` — two operands that an operator on a column does not tell apart.

Main results:

* `Schema.sameOperand_of_checkOperand` — a checked operand is the given one in this sense;
* `Statement.operands_same`, `Filter.asked_same` — backends see no more of an operand than that;
* `Schema.compiles_as_validated` — **validating and then compiling a condition is compiling it**.
-/

set_option autoImplicit false

namespace DataAccess

/-! ### Operands that are not told apart -/

/-- Two operands that an operator on a column of some type does not tell apart: they are written alike,
or have elements that are, or spell the same pattern; an operator without operand ignores both. -/
def Operator.SameOperand (op : Operator) (type : ColumnType) (v w : Json) : Prop :=
  match op with
  | .null | .notNull => True
  | .isIn | .notIn => ∀ storage,
    (listValues v).map (fun x => coerceWrite type x storage) =
      (listValues w).map fun x => coerceWrite type x storage
  | .search => v.bareText = w.bareText
  | _ => ∀ storage, coerceWrite type v storage = coerceWrite type w storage

namespace Schema

variable {s : Schema} {field : String} {column : Column} (found : s.column? field = some column)

include found

/-- A checked value is written as the given one. -/
theorem coerceWrite_of_validateValue {v n : Json} (valid : s.validateValue field v = .ok n)
    (storage : BooleanStorage) :
    coerceWrite column.type n storage = coerceWrite column.type v storage := by
  obtain ⟨declared, there, checked⟩ := validateValue_eq_ok.1 valid
  obtain rfl := Option.some.inj (found.symm.trans there)
  exact coerceWrite_of_accepted checked storage

/-- Checked values are written as the given ones, one by one. -/
theorem map_coerceWrite_of_mapM {items checked : List Json}
    (valid : items.mapM (s.validateValue field) = .ok checked) (storage : BooleanStorage) :
    checked.map (fun x => coerceWrite column.type x storage) =
      items.map fun x => coerceWrite column.type x storage := by
  induction items generalizing checked with
  | nil => rw [Outcome.mapM_nil_eq_ok.1 valid]
  | cons v rest ih =>
      obtain ⟨n, more, first, others, rfl⟩ := Outcome.mapM_cons_eq_ok.1 valid
      rw [List.map_cons, List.map_cons, coerceWrite_of_validateValue found first, ih others]

/-- **A checked operand is the given one as far as its operator can tell.** -/
theorem sameOperand_of_checkOperand {c : WhereCondition} {value : Json}
    (checked : s.checkOperand field c = .ok value) :
    c.operator.SameOperand column.type value c.value := by
  have listed (h : (c.values.mapM (s.validateValue field)).map Json.array = .ok value)
      (storage : BooleanStorage) :
      (listValues value).map (fun x => coerceWrite column.type x storage) =
        c.values.map fun x => coerceWrite column.type x storage := by
    obtain ⟨items, valid, rfl⟩ := Outcome.map_eq_ok.1 h
    exact map_coerceWrite_of_mapM found valid storage
  rw [checkOperand] at checked
  cases operator : c.operator with
  | null | notNull => trivial
  | isIn | notIn =>
      simp only [operator] at checked
      exact listed checked
  | search =>
      simp only [operator] at checked
      split at checked
      · split at checked
        · next same =>
          rw [← Except.ok.inj checked, ← same]
          rfl
        · exact absurd checked (by simp)
        · next other _ =>
          -- what is no text is searched for as it is printed
          rw [← Except.ok.inj checked]
          cases given : c.value with
          | string text => exact absurd given (other text)
          | _ => rfl
      · exact absurd checked (by simp)
  | equals | notEquals | gt | gte | lt | lte =>
      simp only [operator] at checked
      exact coerceWrite_of_validateValue found checked

end Schema

/-! ### What backends see of an operand -/

section Operands

variable {c : WhereCondition} {type : ColumnType} {value : Json}
  (same : c.operator.SameOperand type value c.value)

include same

/-- Operands that are not told apart are bound alike. -/
theorem Statement.operands_same (storage : BooleanStorage) :
    ((operands type { c with value }).map fun entry => coerceWrite entry.1 entry.2 storage) =
      (operands type c).map fun entry => coerceWrite entry.1 entry.2 storage := by
  rw [operands, operands]
  cases operator : c.operator with
  | null | notNull => rfl
  | isIn | notIn =>
      rw [operator] at same
      simpa [WhereCondition.values, Function.comp_def] using same storage
  | search =>
      rw [operator] at same
      have pattern : value.bareText = c.value.bareText := same
      simp [pattern]
  | equals | notEquals | gt | gte | lt | lte =>
      rw [operator] at same
      simpa using same storage

/-- Documents are asked the same. -/
theorem Filter.asked_same : asked type c.operator value = asked type c.operator c.value := by
  cases operator : c.operator with
  | null | notNull => rfl
  | isIn | notIn =>
      rw [operator] at same
      simp only [asked]
      rw [same .native]
  | search =>
      rw [operator] at same
      have pattern : value.bareText = c.value.bareText := same
      simp only [asked, pattern]
  | equals | notEquals | gt | gte | lt | lte =>
      rw [operator] at same
      simp only [asked]
      rw [same .native]

/-- Only the values of the condition change. -/
theorem WhereCondition.sameForm_of_same : c.SameForm { c with value } := by
  refine ⟨rfl, rfl, fun list => ?_⟩
  have written : (listValues value).map (fun x => coerceWrite type x .native) =
      (listValues c.value).map fun x => coerceWrite type x .native := by
    cases operator : c.operator with
    | isIn | notIn =>
        rw [operator] at same
        exact same .native
    | _ =>
        rw [operator] at list
        exact absurd list (by decide)
  simpa [values] using (congrArg List.length written).symm

end Operands

/-! ### Conditions on the base table -/

section Validated

variable {s : Schema} {c c' : WhereCondition} (valid : s.validateCondition c = .ok c')

include valid

/-- A validated condition is the given one, with an operand that the column does not tell apart. -/
theorem Schema.same_of_validateCondition : ∃ column value, s.column? c.column = some column ∧
    c' = { c with value } ∧ c.operator.SameOperand column.type value c.value := by
  obtain ⟨known, value, checked, rfl⟩ := validateCondition_eq_ok.1 valid
  obtain ⟨column, found⟩ := Option.isSome_iff_exists.1 known
  exact ⟨column, value, found, rfl, sameOperand_of_checkOperand found checked⟩

namespace Statement

/-- A condition binds the same values after validation. -/
theorem bindings_validated (flat : c.isDeep = false) (d : Dialect) (nodes : List RelationNode) :
    bindings d s nodes c' = bindings d s nodes c := by
  obtain ⟨column, value, found, rfl, same⟩ := s.same_of_validateCondition valid
  have base := WhereCondition.path?_of_flat flat
  have base' : WhereCondition.path? { c with value } = none := base
  have bound := congrArg (List.map fun v => (c.column, v)) (operands_same same d.booleans)
  rw [List.map_map, List.map_map] at bound
  simp only [bindings, address, base, base', found, Option.map_some, Option.getD_some]
  exact bound

/-- Among other conditions, too. -/
theorem flatMap_bindings_validated (flat : c.isDeep = false) (d : Dialect)
    (nodes : List RelationNode) (before after : List WhereCondition) :
    (before ++ c' :: after).flatMap (bindings d s nodes) =
      (before ++ c :: after).flatMap (bindings d s nodes) := by
  rw [List.flatMap_append, List.flatMap_append, List.flatMap_cons, List.flatMap_cons,
    bindings_validated valid flat d nodes]

theorem sameForm_validated (before after : List WhereCondition) :
    List.Forall₂ WhereCondition.SameForm (before ++ c :: after) (before ++ c' :: after) := by
  obtain ⟨column, value, -, rfl, same⟩ := s.same_of_validateCondition valid
  have unchanged (cs : List WhereCondition) : List.Forall₂ WhereCondition.SameForm cs cs :=
    List.forall₂_same.2 fun c _ => ⟨rfl, rfl, fun _ => rfl⟩
  exact List.rel_append (unchanged before) (.cons (WhereCondition.sameForm_of_same same)
    (unchanged after))

end Statement

end Validated

/-! ### Compiling -/

/-- Related results that are read alike are the same results. -/
theorem Outcome.Rel.map_eq {ε α β γ : Type} {r : α → β → Prop} {x : Except ε α} {y : Except ε β}
    {f : α → γ} {g : β → γ} (related : Rel r x y)
    (same : ∀ a b, x = .ok a → y = .ok b → r a b → f a = g b) : f <$> x = g <$> y := by
  cases related with
  | error e => rfl
  | ok related => exact congrArg Except.ok (same _ _ rfl rfl related)

namespace Statement

/-- Matching statements that bind the same values are the same query. -/
theorem Matches.compile_eq {st st' : Statement} {d : Dialect} (matched : Matches st st')
    (bound : params d st = params d st') : st.compile d = st'.compile d := by
  have text : st.render d = st'.render d := matched.renderFrom d 0
  rw [compile, compile, text, bound]

variable {s : Schema} {c c' : WhereCondition}

theorem select_validated (flat : c.isDeep = false) (valid : s.validateCondition c = .ok c')
    (d : Dialect) (fields : Option (List String)) (nodes : List RelationNode)
    (before after : List WhereCondition) (sort : List SortCondition) (window : Option Window) :
    compile d <$> select s fields nodes (before ++ c :: after) sort window =
      compile d <$> select s fields nodes (before ++ c' :: after) sort window := by
  refine (matches_select (sameForm_validated valid before after) fields sort window).map_eq ?_
  intro st st' compiled compiled' matched
  refine matched.compile_eq ((select_spec compiled d).2.1.trans ?_)
  rw [← flatMap_bindings_validated valid flat d nodes before after]
  exact (select_spec compiled' d).2.1.symm

theorem count_validated (flat : c.isDeep = false) (valid : s.validateCondition c = .ok c')
    (d : Dialect) (nodes : List RelationNode) (before after : List WhereCondition) :
    compile d <$> count s nodes (before ++ c :: after) =
      compile d <$> count s nodes (before ++ c' :: after) := by
  refine (matches_count (sameForm_validated valid before after)).map_eq ?_
  intro st st' compiled compiled' matched
  refine matched.compile_eq ((count_spec compiled d).2.1.trans ?_)
  rw [← flatMap_bindings_validated valid flat d nodes before after]
  exact (count_spec compiled' d).2.1.symm

end Statement

namespace DocumentDatasource

variable {m : Type → Type} [Monad m] [LawfulMonad m] {s : Schema} {c c' : WhereCondition}

theorem conditionFilter_validated (d : DocumentDatasource m) (flat : c.isDeep = false)
    (valid : s.validateCondition c = .ok c') (nodes : List RelationNode) :
    d.conditionFilter s nodes c = d.conditionFilter s nodes c' := by
  obtain ⟨column, value, found, rfl, same⟩ := s.same_of_validateCondition valid
  have base := WhereCondition.path?_of_flat flat
  have base' : WhereCondition.path? { c with value } = none := base
  have type : (liftExcept (s.columnType c.column) : ExceptT DataError m ColumnType) =
      pure column.type := by
    rw [show s.columnType c.column = .ok column.type by simp [Schema.columnType, found]]
    rfl
  simp only [conditionFilter, base, base', type, pure_bind, Filter.ofCondition,
    Filter.asked_same same]

theorem compileFilter_validated (d : DocumentDatasource m) (flat : c.isDeep = false)
    (valid : s.validateCondition c = .ok c') (nodes : List RelationNode)
    (before after : List WhereCondition) :
    d.compileFilter s (before ++ c :: after) nodes = d.compileFilter s (before ++ c' :: after) nodes := by
  rw [compileFilter, compileFilter, List.mapM_append, List.mapM_append, List.mapM_cons,
    List.mapM_cons, conditionFilter_validated d flat valid nodes]

end DocumentDatasource

/-- **Validating a condition on the base table and then compiling it is compiling it**, wherever it
stands among other conditions.  Each dialect gets the same statement with the same bound values, or
refuses both with the same error, and documents are filtered alike. -/
theorem Schema.compiles_as_validated {s : Schema} {c c' : WhereCondition} (flat : c.isDeep = false)
    (valid : s.validateCondition c = .ok c') (nodes : List RelationNode)
    (before after : List WhereCondition) :
    (∀ d fields sort window,
      Statement.compile d <$> Statement.select s fields nodes (before ++ c :: after) sort window =
        Statement.compile d <$>
          Statement.select s fields nodes (before ++ c' :: after) sort window) ∧
    (∀ d, Statement.compile d <$> Statement.count s nodes (before ++ c :: after) =
      Statement.compile d <$> Statement.count s nodes (before ++ c' :: after)) ∧
    (∃ column, s.column? c.column = some column ∧
      Filter.ofCondition c.column column.type c.operator c.value =
        Filter.ofCondition c'.column column.type c'.operator c'.value) ∧
    ∀ (m : Type → Type) [Monad m] [LawfulMonad m] (d : DocumentDatasource m),
      d.compileFilter s (before ++ c :: after) nodes =
        d.compileFilter s (before ++ c' :: after) nodes := by
  refine ⟨?_, ?_, ?_, ?_⟩
  · intro d fields sort window
    exact Statement.select_validated flat valid d fields nodes before after sort window
  · intro d
    exact Statement.count_validated flat valid d nodes before after
  · obtain ⟨column, value, found, rfl, same⟩ := s.same_of_validateCondition valid
    refine ⟨column, found, ?_⟩
    rw [Filter.ofCondition, Filter.ofCondition, Filter.asked_same same]
  · intro m _ _ d
    exact d.compileFilter_validated flat valid nodes before after

/-! ### Members by a list of booleans -/

/-- People with an age who are active or not. -/
def members : Schema :=
  .ofColumns "people" [.serverKey "id", .plain "age" .number, .plain "active" .boolean] []

/-- A list in a text is bound as the booleans that it was validated to. -/
theorem compiles_as_validated_active :
    WhereCondition.isDeep ⟨"active", .isIn, .string "1, false"⟩ = false ∧
      members.validateCondition ⟨"active", .isIn, .string "1, false"⟩ =
        .ok ⟨"active", .isIn, .array [.bool true, .bool false]⟩ ∧
      Statement.compile .mssql <$> Statement.count members []
          [⟨"age", .gt, .int 17⟩, ⟨"active", .isIn, .string "1, false"⟩] =
        .ok ⟨"SELECT COUNT(*) AS total FROM [people] WHERE [people].[age] > @p1" ++
          " AND [people].[active] IN (@p2, @p3)", [.int 17, .int 1, .int 0]⟩ := by
  have valid : members.validateCondition ⟨"active", .isIn, .string "1, false"⟩ =
      .ok ⟨"active", .isIn, .array [.bool true, .bool false]⟩ := by
    rfl
  have flat : WhereCondition.isDeep ⟨"active", .isIn, .string "1, false"⟩ = false := by
    decide +kernel
  refine ⟨flat, valid, ?_⟩
  exact (Schema.compiles_as_validated flat valid [] [⟨"age", .gt, .int 17⟩] []).2.1 .mssql

end DataAccess
