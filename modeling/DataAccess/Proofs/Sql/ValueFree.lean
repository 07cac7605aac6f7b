import Mathlib.Data.List.Forall2
import DataAccess.Proofs.Outcome
import DataAccess.Proofs.Sql.Lexing
/-
**Values stay out of the text.**  Two runs of the same builder on the same names, operators and list
lengths, but on any values, write the same text.  Statements that match token by token, the values of
their slots aside, are rendered alike and bind as many values; each builder takes inputs of the same
form to matching statements, or refuses both with the same error.

Main definitions:

* `Outcome.Rel` — two pipelines that fail alike or come to related results;
* `Token.Matches`, `Statement.Matches` — the same tokens, the values of slots aside;
* `WhereCondition.SameForm`, `Record.SameFields` — inputs that differ in their values only;
* `Statement.SameText` — the same text for a dialect, and as many values.

Main results:

* `Statement.Matches.sameText` — matching statements have the same text;
* `Statement.matches_condition`, `Statement.matches_conditions` — conditions of the same form;
* `Statement.text_free_of_values` — **no value reaches the text of a statement**.
-/

set_option autoImplicit false

namespace DataAccess

/-! ### Two pipelines side by side -/

namespace Outcome

variable {ε α β γ δ : Type}

/-- Two pipelines that fail alike, or come to related results. -/
inductive Rel (r : α → β → Prop) : Except ε α → Except ε β → Prop
  | error (e : ε) : Rel r (.error e) (.error e)
  | ok {a : α} {b : β} (related : r a b) : Rel r (.ok a) (.ok b)

theorem Rel.mono {r q : α → β → Prop} {x : Except ε α} {y : Except ε β} (h : Rel r x y)
    (imp : ∀ a b, r a b → q a b) : Rel q x y := by
  cases h with
  | error e => exact .error e
  | ok related => exact .ok (imp _ _ related)

theorem Rel.bind {r : α → β → Prop} {q : γ → δ → Prop} {x : Except ε α} {y : Except ε β}
    {f : α → Except ε γ} {g : β → Except ε δ} (h : Rel r x y)
    (next : ∀ a b, r a b → Rel q (f a) (g b)) : Rel q (x >>= f) (y >>= g) := by
  cases h with
  | error e => exact .error e
  | ok related => exact next _ _ related

/-- One pipeline goes on in two ways that are related. -/
theorem Rel.bind_same {q : γ → δ → Prop} (x : Except ε α) {f : α → Except ε γ}
    {g : α → Except ε δ} (next : ∀ a, Rel q (f a) (g a)) : Rel q (x >>= f) (x >>= g) := by
  cases x with
  | error e => exact .error e
  | ok a => exact next a

/-- Lists related item by item are handled item by item. -/
theorem Rel.mapM {r : α → β → Prop} {q : γ → δ → Prop} {f : α → Except ε γ} {g : β → Except ε δ}
    (each : ∀ a b, r a b → Rel q (f a) (g b)) {xs : List α} {ys : List β}
    (h : List.Forall₂ r xs ys) : Rel (List.Forall₂ q) (xs.mapM f) (ys.mapM g) := by
  induction h with
  | nil => exact .ok .nil
  | cons first _ ih =>
      rw [List.mapM_cons, List.mapM_cons]
      refine (each _ _ first).bind fun c d here => ih.bind fun cs ds others => ?_
      exact .ok (.cons here others)

end Outcome

/-! ### Statements with other values -/

/-- The same token, or two slots of one type. -/
inductive Token.Matches : Token → Token → Prop
  | refl (t : Token) : Matches t t
  | slot (type : ColumnType) (v w : Json) : Matches (.slot type v) (.slot type w)

theorem Token.Matches.isSlot {t u : Token} (h : t.Matches u) : t.isSlot = u.isSlot := by
  cases h <;> rfl

theorem Token.Matches.render {t u : Token} (h : t.Matches u) (d : Dialect) (n : Nat) :
    t.render d n = u.render d n := by
  cases h <;> rfl

namespace Statement

/-- Token by token the same statement, the values of slots aside. -/
def Matches (s t : Statement) : Prop := List.Forall₂ Token.Matches s t

theorem Matches.refl (s : Statement) : Matches s s := List.forall₂_same.2 fun t _ => .refl t

theorem Matches.append {s t s' t' : Statement} (h : Matches s s') (h' : Matches t t') :
    Matches (s ++ t) (s' ++ t') := List.rel_append h h'

/-- A slot of one type at the end of the same statement. -/
theorem matches_slot (s : Statement) (type : ColumnType) (v w : Json) :
    Matches (s ++ [.slot type v]) (s ++ [.slot type w]) :=
  (Matches.refl s).append (.cons (.slot type v w) .nil)

theorem Matches.separated {parts parts' : List Statement} (separator : String)
    (h : List.Forall₂ Matches parts parts') :
    Matches (separated separator parts) (separated separator parts') := by
  induction h with
  | nil => exact .nil
  | cons first others ih =>
      cases others with
      | nil => simpa [Statement.separated] using first
      | cons second rest =>
          rw [separated_cons, separated_cons]
          exact first.append (.cons (.refl _) ih)

theorem Matches.renderFrom {s t : Statement} (h : Matches s t) (d : Dialect) (n : Nat) :
    renderFrom d n s = renderFrom d n t := by
  induction h generalizing n with
  | nil => rfl
  | cons first _ ih =>
      rw [Statement.renderFrom, Statement.renderFrom, first.render, first.isSlot, ih]

theorem Matches.slots {s t : Statement} (h : Matches s t) : slots s = slots t := by
  induction h with
  | nil => rfl
  | cons first _ ih =>
      rw [Statement.slots, Statement.slots] at ih ⊢
      rw [List.filter_cons, List.filter_cons, first.isSlot]
      split
      · rw [List.length_cons, List.length_cons, ih]
      · exact ih

/-- The same text for a dialect, and as many values. -/
def SameText (d : Dialect) (s t : Statement) : Prop :=
  (s.compile d).sql = (t.compile d).sql ∧
    (s.compile d).params.length = (t.compile d).params.length

/-- **Matching statements have the same text.** -/
theorem Matches.sameText {s t : Statement} (h : Matches s t) (d : Dialect) : SameText d s t := by
  refine ⟨h.renderFrom d 0, ?_⟩
  have lengths : (params d s).length = (params d t).length := by
    rw [length_params, length_params, h.slots]
  exact lengths

end Statement

/-! ### Inputs with other values -/

/-- Conditions on one column with one operator; two list operands have as many elements. -/
structure WhereCondition.SameForm (c c' : WhereCondition) : Prop where
  column : c.column = c'.column
  operator : c.operator = c'.operator
  elements : c.operator.isList = true → c.values.length = c'.values.length

/-- Records with the same fields. -/
def Record.SameFields (data data' : Record) : Prop :=
  ∀ field, Keyed.contains data field = Keyed.contains data' field

/-- Two records with the same fields hold a value each in a field, or neither does. -/
theorem Record.SameFields.get? {data data' : Record} (h : data.SameFields data') (field : String) :
    Keyed.get? data field = none ∧ Keyed.get? data' field = none ∨
      ∃ v w, Keyed.get? data field = some v ∧ Keyed.get? data' field = some w := by
  have both := h field
  rw [Keyed.contains, Keyed.contains] at both
  cases left : Keyed.get? data field with
  | none =>
      rw [left] at both
      exact .inl ⟨rfl, Option.isNone_iff_eq_none.1 (by simpa using both.symm)⟩
  | some v =>
      rw [left] at both
      obtain ⟨w, right⟩ := Option.isSome_iff_exists.1 both.symm
      exact .inr ⟨v, w, rfl, right⟩

namespace Statement

/-! ### Reads -/

/-- Elements of two lists of one length, each in a slot. -/
theorem matches_elements (type : ColumnType) {xs ys : List Json} (length : xs.length = ys.length) :
    List.Forall₂ Matches (xs.map fun v => ([.slot type v] : Statement))
      (ys.map fun v => [.slot type v]) := by
  induction xs generalizing ys with
  | nil =>
      rw [List.length_nil, eq_comm, List.length_eq_zero_iff] at length
      rw [length]
      exact .nil
  | cons x xs ih =>
      cases ys with
      | nil => simp at length
      | cons y ys =>
          refine .cons (.cons (.slot type x y) .nil) (ih ?_)
          simpa using length

/-- Conditions of the same form on the same column match. -/
theorem matches_condition {c c' : WhereCondition} (same : c.SameForm c') (target : Statement)
    (type : ColumnType) : Matches (condition target type c) (condition target type c') := by
  have compared (operator : String) : Matches (target ++ [.text operator, .slot type c.value])
      (target ++ [.text operator, .slot type c'.value]) :=
    (Matches.refl target).append (.cons (.refl _) (.cons (.slot type _ _) .nil))
  have listed (operator constant : String) (lengths : c.values.length = c'.values.length) :
      Matches
        (if c.values.isEmpty then [.text constant]
          else target ++ [.text operator] ++
            separated ", " (c.values.map fun v => [.slot type v]) ++ [.text ")"])
        (if c'.values.isEmpty then [.text constant]
          else target ++ [.text operator] ++
            separated ", " (c'.values.map fun v => [.slot type v]) ++ [.text ")"]) := by
    have empty : c.values.isEmpty = c'.values.isEmpty := by
      rw [Bool.eq_iff_iff, List.isEmpty_iff_length_eq_zero, List.isEmpty_iff_length_eq_zero, lengths]
    rw [empty]
    split
    · exact .refl _
    · exact ((Matches.refl _).append (.separated ", " (matches_elements type lengths))).append
        (.refl _)
  have lengths := same.elements
  unfold condition
  rw [← same.operator]
  cases operator : c.operator with
  | equals => exact compared " = "
  | notEquals => exact compared " <> "
  | gt => exact compared " > "
  | gte => exact compared " >= "
  | lt => exact compared " < "
  | lte => exact compared " <= "
  | search =>
      -- the pattern is a value like any other
      exact (Matches.refl target).append
        (.cons (.refl _) (.cons (.refl _) (.cons (.refl _) (.cons (.slot .string _ _) .nil))))
  | isIn => exact listed " IN (" "1 = 0" (lengths (by rw [operator]; rfl))
  | notIn => exact listed " NOT IN (" "1 = 1" (lengths (by rw [operator]; rfl))
  | null => exact .refl _
  | notNull => exact .refl _

variable {s : Schema} {nodes : List RelationNode} {cs cs' : List WhereCondition}

/-- The columns decide whether conditions are refused, and with which error. -/
theorem matches_conditions (same : List.Forall₂ WhereCondition.SameForm cs cs') :
    Outcome.Rel Matches (conditions s nodes cs) (conditions s nodes cs') := by
  have each (c c' : WhereCondition) (h : c.SameForm c') :
      Outcome.Rel Matches (resolved s nodes c) (resolved s nodes c') := by
    have addressed : address s nodes c = address s nodes c' := by
      rw [address, address, WhereCondition.path?, WhereCondition.path?, h.column]
    rw [resolved, resolved, addressed]
    refine .bind_same _ fun (table, field, schema) => ?_
    dsimp only
    cases schema.column? field with
    | none => exact .error _
    | some column => exact .ok (matches_condition h _ _)
  refine (Outcome.Rel.mapM each same).bind fun clauses clauses' matched => .ok ?_
  have empty : clauses.isEmpty = clauses'.isEmpty := by
    cases matched <;> rfl
  rw [empty]
  split
  · exact .refl _
  · exact (Matches.refl _).append (.separated " AND " matched)

theorem matches_select (same : List.Forall₂ WhereCondition.SameForm cs cs')
    (fields : Option (List String)) (sort : List SortCondition) (window : Option Window) :
    Outcome.Rel Matches (select s fields nodes cs sort window)
      (select s fields nodes cs' sort window) := by
  refine (matches_conditions same).bind fun filter filter' matched => .ok ?_
  exact (((Matches.refl _).append matched).append (.refl _)).append (.refl _)

theorem matches_count (same : List.Forall₂ WhereCondition.SameForm cs cs') :
    Outcome.Rel Matches (count s nodes cs) (count s nodes cs') :=
  (matches_conditions same).bind fun _ _ matched => .ok ((Matches.refl _).append matched)

/-! ### Writes -/

/-- Cells of the same columns. -/
def SameColumns (cells cells' : List (Column × Json)) : Prop :=
  List.Forall₂ (fun cell cell' => cell.1 = cell'.1) cells cells'

/-- The columns of which a record holds a value, some columns left out. -/
theorem sameColumns_held {data data' : Record} (same : data.SameFields data') (out : Column → Prop)
    [DecidablePred out] (columns : List Column) :
    SameColumns
      (columns.filterMap fun c => if out c then none else (data.get? c.field).map fun v => (c, v))
      (columns.filterMap fun c =>
        if out c then none else (data'.get? c.field).map fun v => (c, v)) := by
  induction columns with
  | nil => exact .nil
  | cons c rest ih =>
      rw [List.filterMap_cons, List.filterMap_cons]
      by_cases left : out c
      · rw [if_pos left, if_pos left]
        exact ih
      · rw [if_neg left, if_neg left]
        rcases same.get? c.field with ⟨nothing, nothing'⟩ | ⟨v, w, held, held'⟩
        · rw [nothing, nothing']
          exact ih
        · rw [held, held']
          exact .cons rfl ih

/-- Cells of the same columns, each written in the same way around its value. -/
theorem SameColumns.matches {cells cells' : List (Column × Json)} (h : SameColumns cells cells')
    (write : Column × Json → Statement)
    (each : ∀ c v w, Matches (write (c, v)) (write (c, w))) :
    List.Forall₂ Matches (cells.map write) (cells'.map write) := by
  induction h with
  | nil => exact .nil
  | @cons cell cell' _ _ first _ ih =>
      obtain ⟨c, v⟩ := cell
      obtain ⟨c', w⟩ := cell'
      obtain rfl : c = c' := first
      exact .cons (each c v w) ih

theorem SameColumns.isEmpty {cells cells' : List (Column × Json)} (h : SameColumns cells cells') :
    cells.isEmpty = cells'.isEmpty := by
  cases h <;> rfl

theorem matches_insert {data data' : Record} (same : data.SameFields data') (style : Returning) :
    Matches (insert style s data) (insert style s data') := by
  have cells : SameColumns (inserted s data) (inserted s data') :=
    sameColumns_held same (fun c => c.isServerGenerated = true) s.columns
  have columns := Matches.separated ", "
    (cells.matches (fun cell => [.name cell.1.field]) fun _ _ _ => .refl _)
  have values := Matches.separated ", "
    (cells.matches (fun cell => [.slot cell.1.type cell.2])
      fun c v w => .cons (.slot c.type v w) .nil)
  have listed (between : String) : Matches
      ([.text " ("] ++ separated ", " ((inserted s data).map fun cell => [.name cell.1.field]) ++
        [.text between] ++
        separated ", " ((inserted s data).map fun cell => [.slot cell.1.type cell.2]) ++
        [.text ")"])
      ([.text " ("] ++ separated ", " ((inserted s data').map fun cell => [.name cell.1.field]) ++
        [.text between] ++
        separated ", " ((inserted s data').map fun cell => [.slot cell.1.type cell.2]) ++
        [.text ")"]) :=
    (((((Matches.refl _).append columns).append (.refl _)).append values).append (.refl _))
  unfold insert
  simp only [cells.isEmpty]
  split
  · exact .refl _
  · exact ((Matches.refl _).append (listed ") VALUES (")).append (.refl _)
  · exact .refl _
  · exact (Matches.refl _).append (listed ") OUTPUT INSERTED.* VALUES (")
  · exact .refl _
  · exact (Matches.refl _).append (listed ") VALUES (")

theorem matches_update {data data' : Record} (same : data.SameFields data') (style : Returning)
    (id id' : Json) : Outcome.Rel Matches (update style s id data) (update style s id' data') := by
  refine .bind_same _ fun primaryKey => ?_
  have cells : SameColumns (updated s primaryKey data) (updated s primaryKey data') :=
    sameColumns_held same (fun c => c.field = primaryKey) s.columns
  dsimp only
  rw [cells.isEmpty]
  split
  · exact .error _
  · have assignments := Matches.separated ", " (cells.matches
      (fun cell => [.name cell.1.field, .text " = ", .slot cell.1.type cell.2])
      fun c v w => .cons (.refl _) (.cons (.refl _) (.cons (.slot c.type v w) .nil)))
    have change := (Matches.refl [.text "UPDATE ", .name s.table, .text " SET "]).append assignments
    have filter := matches_slot [.text " WHERE ", .name primaryKey, .text " = "]
      (keyType s primaryKey) id id'
    refine .ok ?_
    cases style with
    | clause => exact (change.append filter).append (.refl _)
    | output => exact (change.append (.refl _)).append filter
    | reselect => exact change.append filter

theorem matches_delete (id id' : Json) :
    Outcome.Rel Matches (delete s id) (delete s id') :=
  .bind_same _ fun primaryKey => .ok (matches_slot
    [.text "DELETE FROM ", .name s.table, .text " WHERE ", .name primaryKey, .text " = "]
    (keyType s primaryKey) id id')

theorem matches_softDelete (id id' : Json) (column timestamp timestamp' : String) :
    Outcome.Rel Matches (softDelete s id column timestamp) (softDelete s id' column timestamp') := by
  refine .bind_same _ fun primaryKey => ?_
  split
  · have stamp := matches_slot [.text "UPDATE ", .name s.table, .text " SET ", .name column,
      .text " = "] .string (.string timestamp) (.string timestamp')
    exact .ok (stamp.append (matches_slot [.text " WHERE ", .name primaryKey, .text " = "]
      (keyType s primaryKey) id id'))
  · exact .error _

theorem matches_selectByKey (d : Dialect) (id id' : Json) :
    Outcome.Rel Matches (selectByKey d s (some id)) (selectByKey d s (some id')) :=
  .bind_same _ fun primaryKey => .ok ((Matches.refl _).append
    (matches_slot [.text " = "] (keyType s primaryKey) id id'))

theorem matches_countMatching (field : String) (v v' : Json) {excluded excluded' : Option Json}
    (both : excluded.isSome = excluded'.isSome) :
    Outcome.Rel Matches (countMatching s field v excluded) (countMatching s field v' excluded') := by
  have compared (column : String) (operator : Operator) (one : operator.isList = false)
      (v v' : Json) : WhereCondition.SameForm ⟨column, operator, v⟩ ⟨column, operator, v'⟩ :=
    ⟨rfl, rfl, fun list => absurd (list.symm.trans one) (by simp)⟩
  have equal := compared field .equals rfl v v'
  cases excluded with
  | none =>
      cases excluded' with
      | none => exact matches_count (.cons equal .nil)
      | some id' => simp at both
  | some id =>
      cases excluded' with
      | none => simp at both
      | some id' =>
          refine .bind_same _ fun primaryKey => matches_count (.cons equal (.cons ?_ .nil))
          exact compared primaryKey .notEquals rfl id id'

/-! ### Every statement -/

/-- **No value reaches the text of a statement.**  Two reads whose conditions differ in their values
only, two writes of records with the same fields, and two statements on different keys or timestamps
fail with the same error, or have the same text and as many values. -/
theorem text_free_of_values (d : Dialect) (s : Schema) :
    (∀ fields nodes cs cs' sort window, List.Forall₂ WhereCondition.SameForm cs cs' →
      Outcome.Rel (SameText d) (select s fields nodes cs sort window)
        (select s fields nodes cs' sort window)) ∧
    (∀ nodes cs cs', List.Forall₂ WhereCondition.SameForm cs cs' →
      Outcome.Rel (SameText d) (count s nodes cs) (count s nodes cs')) ∧
    (∀ field v v' excluded excluded', Option.isSome excluded = Option.isSome excluded' →
      Outcome.Rel (SameText d) (countMatching s field v excluded)
        (countMatching s field v' excluded')) ∧
    (∀ style data data', Record.SameFields data data' →
      SameText d (insert style s data) (insert style s data')) ∧
    (∀ style id id' data data', Record.SameFields data data' →
      Outcome.Rel (SameText d) (update style s id data) (update style s id' data')) ∧
    (∀ id id', Outcome.Rel (SameText d) (delete s id) (delete s id')) ∧
    (∀ id id' column timestamp timestamp',
      Outcome.Rel (SameText d) (softDelete s id column timestamp)
        (softDelete s id' column timestamp')) ∧
    ∀ id id', Outcome.Rel (SameText d) (selectByKey d s (some id)) (selectByKey d s (some id')) := by
  have text {x y : Outcome Statement} (h : Outcome.Rel Matches x y) :
      Outcome.Rel (SameText d) x y := h.mono fun _ _ matched => matched.sameText d
  refine ⟨?_, ?_, ?_, ?_, ?_, ?_, ?_, ?_⟩
  · intro fields nodes cs cs' sort window same
    exact text (matches_select same fields sort window)
  · intro nodes cs cs' same
    exact text (matches_count same)
  · intro field v v' excluded excluded' both
    exact text (matches_countMatching field v v' both)
  · intro style data data' same
    exact (matches_insert same style).sameText d
  · intro style id id' data data' same
    exact text (matches_update same style id id')
  · intro id id'
    exact text (matches_delete id id')
  · intro id id' column timestamp timestamp'
    exact text (matches_softDelete id id' column timestamp timestamp')
  · intro id id'
    exact text (matches_selectByKey d id id')

/-- A search for a needle among people of two ages. -/
def search (needle : String) (first second : Json) : List WhereCondition :=
  [⟨"name", .search, .string needle⟩, ⟨"age", .isIn, .array [first, second]⟩]

/-- People with a name and an age. -/
def named : Schema :=
  .ofColumns "people" [.serverKey "id", .plain "name" .string, .plain "age" .number] []

theorem text_free_of_values_quoted :
    List.Forall₂ WhereCondition.SameForm (search "ann" (.int 1) (.string "2"))
        (search "%'\" OR 1 = 1; --$3?" .null (.object [("'", .bool true)])) ∧
      ∃ st st',
        count named [] (search "ann" (.int 1) (.string "2")) = .ok st ∧
        count named [] (search "%'\" OR 1 = 1; --$3?" .null (.object [("'", .bool true)])) = .ok st' ∧
        SameText .mysql st st' := by
  have same : List.Forall₂ WhereCondition.SameForm (search "ann" (.int 1) (.string "2"))
      (search "%'\" OR 1 = 1; --$3?" .null (.object [("'", .bool true)])) :=
    .cons ⟨rfl, rfl, fun _ => rfl⟩ (.cons ⟨rfl, rfl, fun _ => rfl⟩ .nil)
  have related := (text_free_of_values .mysql named).2.1 [] _ _ same
  refine ⟨same, _, _, rfl, rfl, ?_⟩
  cases related with
  | ok texts => exact texts

end Statement

end DataAccess
