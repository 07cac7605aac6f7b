import DataAccess.Proofs.Sql.Placeholders
/-
**One read, three spellings.**  The dialects differ in how they quote names, mark bound values, match
patterns and cut pages, and in how they store booleans.  Apart from that they say the same: a read is
one list of words, names, places for values and patterns, and the text of each dialect spells this
list, with the clause of its page behind it.  Read back, each text gives the list again.

Main definitions:

* `Piece`, `Piece.spell`, `Piece.lexemes` — the parts of a read, and what a dialect makes of them;
* `pageText` — the clause of a page, with a stand-in for an order where one is needed;
* `Statement.statementWords` — the words that reads are made of;
* `Statement.typedValues`, `BooleanStorage.store` — bound values with their types, and how booleans
  among them are stored;
* `Statement.Alike` — queries that spell one read.

Main results:

* `Statement.spelled_piecesFrom`, `Statement.lexemes_piecesFrom` — a text spells its pieces and is read
  as them;
* `Statement.written_projection`, `Statement.written_conditions`, … — the words of each clause;
* `Statement.values_alike` — the values of a condition differ in stored booleans only;
* `Statement.alike_select`, `Statement.alike_count` — a statement that is compiled is spelled alike;
* `Statement.reads_alike` — **the dialects refuse a read alike, or spell it alike**.
-/

set_option autoImplicit false

namespace DataAccess

/-! ### Pieces -/

/-- A part of a read that all dialects have in common. -/
inductive Piece
  /-- A keyword, a comparison, a constant condition or a separator, spelled alike everywhere. -/
  | word (text : String)
  | name (ident : String)
  /-- The place of a bound value, counted from one. -/
  | place (number : Nat)
  /-- A pattern match that ignores letter case. -/
  | pattern
deriving DecidableEq, Repr

namespace Piece

/-- What a dialect writes for a piece. -/
def spell (d : Dialect) : Piece → String
  | word text => text
  | name ident => d.quote ident
  | place number => d.placeholder number
  | pattern => d.like

/-- What a dialect reads for a piece. -/
def lexemes (d : Dialect) : Piece → List Lexeme
  | name ident => [.name ident]
  | place number => [.mark (d.placeholder number)]
  | piece => (piece.spell d).toList.map .text

/-- The number of a place. -/
def number? : Piece → Option Nat
  | place number => some number
  | _ => none

/-- What a dialect writes for pieces one after another. -/
def spellAll (d : Dialect) : List Piece → String
  | [] => ""
  | piece :: rest => piece.spell d ++ spellAll d rest

end Piece

/-- The clause of a page.  One dialect cuts pages of ordered rows only, so a read without an order gets
one there that orders nothing. -/
def pageText (d : Dialect) (window : Option Window) (ordered : Bool) : String :=
  match window with
  | none => ""
  | some w => " " ++ match d with
    | .postgres | .mysql => s!"LIMIT {w.limit} OFFSET {w.offset}"
    | .mssql => (if ordered then "" else "ORDER BY (SELECT NULL) ") ++
        s!"OFFSET {w.offset} ROWS FETCH NEXT {w.limit} ROWS ONLY"

/-- The piece that a token is, if it is not the clause of a page; a slot is the place `n`. -/
def Token.piece? (n : Nat) : Token → Option Piece
  | .text s => some (.word s)
  | .name ident => some (.name ident)
  | .slot _ _ => some (.place n)
  | .like => some .pattern
  | .window _ _ _ => none

namespace Statement

/-- The pieces of a statement after `n` slots. -/
def piecesFrom : Nat → Statement → List Piece
  | _, [] => []
  | n, t :: rest => (t.piece? (n + 1)).toList ++ piecesFrom (if t.isSlot then n + 1 else n) rest

/-- A statement without a page clause whose fixed texts are among some words. -/
def WrittenIn (words : List String) (s : Statement) : Prop :=
  ∀ t ∈ s, match t with
    | .text word => word ∈ words
    | .window _ _ _ => False
    | _ => True

section Pieces

variable {words : List String} {s : Statement}

theorem WrittenIn.tail {t : Token} (h : WrittenIn words (t :: s)) : WrittenIn words s :=
  fun k member => h k (List.mem_cons_of_mem _ member)

/-- The text of a statement spells its pieces. -/
theorem spelled_piecesFrom (h : WrittenIn words s) (d : Dialect) (n : Nat) :
    renderFrom d n s = Piece.spellAll d (piecesFrom n s) := by
  induction s generalizing n with
  | nil => rfl
  | cons t rest ih =>
      rw [renderFrom, ih h.tail]
      cases t with
      | window limit offset ordered => exact (h _ List.mem_cons_self).elim
      | text s => rfl
      | name ident => rfl
      | slot type value => rfl
      | like => rfl

/-- A statement is read as its pieces. -/
theorem lexemes_piecesFrom (h : WrittenIn words s) (d : Dialect) (n : Nat) :
    lexemesFrom d n s = (piecesFrom n s).flatMap (Piece.lexemes d) := by
  induction s generalizing n with
  | nil => rfl
  | cons t rest ih =>
      rw [lexemesFrom, ih h.tail]
      cases t with
      | window limit offset ordered => exact (h _ List.mem_cons_self).elim
      | text s => rfl
      | name ident => rfl
      | slot type value => rfl
      | like => rfl

/-- The places are numbered one after another. -/
theorem places_piecesFrom (s : Statement) (n : Nat) :
    (piecesFrom n s).filterMap Piece.number? = (List.range (slots s)).map fun k => n + k + 1 := by
  induction s generalizing n with
  | nil => rfl
  | cons t rest ih =>
      rw [piecesFrom, List.filterMap_append, ih]
      cases t with
      | slot type value =>
          have count : slots (.slot type value :: rest) = slots rest + 1 := rfl
          have shift : ∀ k, n + 1 + k + 1 = n + (k + 1) + 1 := by omega
          rw [count, List.range_succ_eq_map]
          simp [Token.piece?, Token.isSlot, Piece.number?, Function.comp_def, shift]
      | text s => simp [Token.piece?, Token.isSlot, Piece.number?, slots]
      | name ident => simp [Token.piece?, Token.isSlot, Piece.number?, slots]
      | like => simp [Token.piece?, Token.isSlot, Piece.number?, slots]
      | window limit offset ordered => simp [Token.piece?, Token.isSlot, slots]

theorem word_mem_piecesFrom {word : String} (n : Nat) :
    .word word ∈ piecesFrom n s ↔ .text word ∈ s := by
  induction s generalizing n with
  | nil => simp [piecesFrom]
  | cons t rest ih =>
      rw [piecesFrom, List.mem_append, ih, List.mem_cons]
      cases t <;> simp [Token.piece?]

end Pieces

/-! ### The words of each clause -/

theorem WrittenIn.mono {words more : List String} {s : Statement} (h : WrittenIn words s)
    (known : ∀ word ∈ words, word ∈ more) : WrittenIn more s := by
  intro t member
  have here := h t member
  cases t with
  | text word => exact known word here
  | window limit offset ordered => exact here
  | name ident => trivial
  | slot type value => trivial
  | like => trivial

theorem WrittenIn.append {words : List String} {s t : Statement} (hs : WrittenIn words s)
    (ht : WrittenIn words t) : WrittenIn words (s ++ t) := by
  intro k member
  rcases List.mem_append.1 member with member | member
  · exact hs k member
  · exact ht k member

/-- A statement holds no other words than those that it is written in. -/
theorem WrittenIn.not_mem {words : List String} {s : Statement} (h : WrittenIn words s)
    {word : String} (unknown : word ∉ words) : Token.text word ∉ s :=
  fun member => unknown (h _ member)

theorem WrittenIn.separated {words : List String} {separator : String} {parts : List Statement}
    (known : separator ∈ words) (each : ∀ p ∈ parts, WrittenIn words p) :
    WrittenIn words (separated separator parts) := by
  intro t member
  rcases mem_separated member with rfl | ⟨p, there, member⟩
  · exact known
  · exact each p there t member

theorem written_nil (words : List String) : WrittenIn words [] :=
  fun _ member => absurd member List.not_mem_nil

theorem written_text {words : List String} {word : String} {s : Statement} (known : word ∈ words)
    (h : WrittenIn words s) : WrittenIn words (.text word :: s) :=
  List.forall_mem_cons.2 ⟨known, h⟩

theorem written_name {words : List String} {s : Statement} (ident : String)
    (h : WrittenIn words s) : WrittenIn words (.name ident :: s) :=
  List.forall_mem_cons.2 ⟨trivial, h⟩

theorem written_slot {words : List String} {s : Statement} (type : ColumnType) (value : Json)
    (h : WrittenIn words s) : WrittenIn words (.slot type value :: s) :=
  List.forall_mem_cons.2 ⟨trivial, h⟩

theorem written_qualified {words : List String} (known : "." ∈ words) (table column : String) :
    WrittenIn words (qualified table column) :=
  written_name table (written_text known (written_name column (written_nil words)))

/-- The words of a projection. -/
def projectionWords : List String := [", ", ".", ".*", " AS "]

/-- The words of joins. -/
def joinWords : List String := [" LEFT JOIN ", " ON ", ".", " = "]

/-- The words of conditions: comparisons, lists, tests for null and constants. -/
def conditionWords : List String :=
  [" WHERE ", " AND ", ".", " = ", " <> ", " > ", " >= ", " < ", " <= ", " ", " IN (", " NOT IN (",
    ", ", ")", " IS NULL", " IS NOT NULL", "1 = 0", "1 = 1"]

/-- The words of an order. -/
def orderWords : List String := [" ORDER BY ", ", ", ".", " ASC", " DESC"]

/-- The words before the conditions of a read. -/
def headWords : List String :=
  ["SELECT ", "SELECT COUNT(*) AS total FROM ", " FROM "] ++ projectionWords ++ joinWords

/-- The words of a read. -/
def statementWords : List String := headWords ++ conditionWords ++ orderWords

theorem written_projection (s : Schema) (fields : Option (List String))
    (nodes : List RelationNode) : WrittenIn projectionWords (projection s fields nodes) := by
  have column (table field other : String) : WrittenIn projectionWords (aliased table field other) :=
    (written_qualified (by decide) table field).append
      (written_text (by decide) (written_name other (written_nil _)))
  refine WrittenIn.separated (by decide) ?_
  intro p member
  rcases List.mem_append.1 member with member | member
  · split at member
    · rw [List.mem_singleton.1 member]
      exact written_name _ (written_text (by decide) (written_nil _))
    · obtain ⟨field, -, rfl⟩ := List.mem_map.1 member
      exact column s.table field field
  · obtain ⟨n, -, member⟩ := List.mem_flatMap.1 member
    obtain ⟨field, -, rfl⟩ := List.mem_map.1 member
    exact column n.table field _

theorem written_joins (nodes : List RelationNode) : WrittenIn joinWords (joins nodes) := by
  intro t member
  obtain ⟨n, -, member⟩ := List.mem_flatMap.1 member
  have edge (table column : String) : WrittenIn joinWords (qualified table column) :=
    written_qualified (by decide) table column
  have join : WrittenIn joinWords ([.text " LEFT JOIN ", .name n.table, .text " ON "] ++
      qualified n.join.ownTable n.join.ownColumn ++ [.text " = "] ++
      qualified n.join.table n.join.column) := by
    refine (((written_text (by decide) ?_).append (edge _ _)).append ?_).append (edge _ _)
    · exact written_name _ (written_text (by decide) (written_nil _))
    · exact written_text (by decide) (written_nil _)
  exact join t member

theorem written_source {first : String} (known : first ∈ headWords) (s : Schema)
    (nodes : List RelationNode) :
    WrittenIn headWords (.text first :: .name s.table :: joins nodes) := by
  refine written_text known (written_name _ ((written_joins nodes).mono ?_))
  exact fun word member => List.mem_append_right _ member

theorem written_selectHead (s : Schema) (fields : Option (List String))
    (nodes : List RelationNode) : WrittenIn headWords (selectHead s fields nodes) := by
  have projected : WrittenIn headWords (projection s fields nodes) :=
    (written_projection s fields nodes).mono fun word member =>
      List.mem_append_left _ (List.mem_append_right _ member)
  exact (written_text (by decide) projected).append (written_source (by decide) s nodes)

/-- The words of a condition on a column. -/
theorem written_condition (table field : String) (type : ColumnType) (c : WhereCondition) :
    WrittenIn conditionWords (condition (qualified table field) type c) := by
  have target : WrittenIn conditionWords (qualified table field) :=
    written_qualified (by decide) table field
  have compared (operator : String) (known : operator ∈ conditionWords) :
      WrittenIn conditionWords (qualified table field ++ [.text operator, .slot type c.value]) :=
    target.append (written_text known (written_slot _ _ (written_nil _)))
  have listed (operator constant : String) (known : operator ∈ conditionWords)
      (known' : constant ∈ conditionWords) : WrittenIn conditionWords
        (if c.values.isEmpty then [.text constant]
          else qualified table field ++ [.text operator] ++
            separated ", " (c.values.map fun v => [.slot type v]) ++ [.text ")"]) := by
    split
    · exact written_text known' (written_nil _)
    · have slots : WrittenIn conditionWords
          (separated ", " (c.values.map fun v => [.slot type v])) := by
        refine WrittenIn.separated (by decide) ?_
        intro p member
        obtain ⟨v, -, rfl⟩ := List.mem_map.1 member
        exact written_slot _ _ (written_nil _)
      exact ((target.append (written_text known (written_nil _))).append slots).append
        (written_text (by decide) (written_nil _))
  unfold condition
  cases c.operator with
  | equals => exact compared " = " (by decide)
  | notEquals => exact compared " <> " (by decide)
  | gt => exact compared " > " (by decide)
  | gte => exact compared " >= " (by decide)
  | lt => exact compared " < " (by decide)
  | lte => exact compared " <= " (by decide)
  | search =>
      refine target.append (written_text (by decide) (List.forall_mem_cons.2 ⟨trivial, ?_⟩))
      exact written_text (by decide) (written_slot _ _ (written_nil _))
  | isIn => exact listed " IN (" "1 = 0" (by decide) (by decide)
  | notIn => exact listed " NOT IN (" "1 = 1" (by decide) (by decide)
  | null => exact target.append (written_text (by decide) (written_nil _))
  | notNull => exact target.append (written_text (by decide) (written_nil _))

theorem written_conditions {s : Schema} {nodes : List RelationNode} {cs : List WhereCondition}
    {filter : Statement} (h : conditions s nodes cs = .ok filter) :
    WrittenIn conditionWords filter := by
  obtain ⟨clauses, compiled, h⟩ := Outcome.bind_eq_ok.1 h
  simp only [pure, Except.pure, Except.ok.injEq] at h
  subst h
  split
  · exact written_nil _
  · refine written_text (by decide) (WrittenIn.separated (by decide) ?_)
    intro p member
    obtain ⟨c, -, resolved⟩ := Outcome.of_mem_mapM compiled member
    obtain ⟨table, field, schema, column, -, -, rfl⟩ := resolved_ok resolved
    exact written_condition table field column.type c

theorem written_order (s : Schema) (sort : List SortCondition) :
    WrittenIn orderWords (order s sort) := by
  unfold order
  simp only
  split
  · exact written_nil _
  · refine written_text (by decide) (WrittenIn.separated (by decide) ?_)
    intro p member
    obtain ⟨c, -, rfl⟩ := List.mem_map.1 member
    refine (written_qualified (by decide) _ _).append (written_text ?_ (written_nil _))
    cases c.direction <;> decide

end Statement

/-! ### Bound values -/

/-- A value for a column of some type as a dialect stores it, given the value as it is where booleans
are booleans. -/
def BooleanStorage.store (storage : BooleanStorage) (type : ColumnType) (v : Json) : Json :=
  match type, v with
  | .boolean, .bool b => storage.encode b
  | _, v => v

theorem coerceWrite_eq_store (storage : BooleanStorage) (type : ColumnType) (v : Json) :
    coerceWrite type v storage = storage.store type (coerceWrite type v .native) := by
  by_cases boolean : type = .boolean
  · subst boolean
    rw [coerceWrite, coerceWrite]
    split
    · next absent =>
      rw [Json.isNull_iff.1 absent]
      rfl
    · cases read : coerceBoolean v with
      | some b => rfl
      | none => cases v <;> first | rfl | exact absurd read (by simp [coerceBoolean])
  · have same (w : Json) : storage.store type w = w := by
      cases type <;> first | rfl | exact absurd rfl boolean
    rw [same]
    unfold coerceWrite
    cases type <;> first | rfl | exact absurd rfl boolean

namespace Statement

/-- The values that a condition binds, with the types of the columns that they stand for. -/
def typedValues (s : Schema) (nodes : List RelationNode) (c : WhereCondition) :
    List (ColumnType × Json) :=
  match address s nodes c with
  | .ok (_, field, schema) =>
    ((schema.column? field).map fun column => operands column.type c).getD []
  | .error _ => []

theorem map_snd_bindings (d : Dialect) (s : Schema) (nodes : List RelationNode)
    (c : WhereCondition) : (bindings d s nodes c).map Prod.snd =
      (typedValues s nodes c).map fun entry => coerceWrite entry.1 entry.2 d.booleans := by
  rw [bindings, typedValues]
  cases address s nodes c with
  | error e => rfl
  | ok found =>
      obtain ⟨table, field, schema⟩ := found
      dsimp only
      cases schema.column? field with
      | none => rfl
      | some column => simp

/-- The values that are bound differ in stored booleans only. -/
theorem values_alike (d : Dialect) (values : List (ColumnType × Json)) :
    (values.map fun entry => coerceWrite entry.1 entry.2 d.booleans) =
      List.zipWith d.booleans.store (values.map Prod.fst)
        (values.map fun entry => coerceWrite entry.1 entry.2 .native) := by
  induction values with
  | nil => rfl
  | cons entry rest ih =>
      rw [List.map_cons, ih, coerceWrite_eq_store]
      rfl

/-! ### Queries of one read -/

/-- Whether a sort clause makes an order: those on joined tables do not. -/
def makesOrder (sort : List SortCondition) : Bool := sort.any fun c => !c.isDeep

/-- Queries that spell one read, with these pieces before the clause of its page. -/
structure Alike (q : Dialect → CompiledQuery) (body : List Piece) (window : Option Window)
    (ordered : Bool) (types : List ColumnType) : Prop where
  /-- All words are words of reads. -/
  words : ∀ word, .word word ∈ body → word ∈ statementWords
  /-- The page tells whether there is an order. -/
  order : .word " ORDER BY " ∈ body ↔ ordered = true
  /-- The places are numbered from one, as many as there are values. -/
  places : body.filterMap Piece.number? = (List.range types.length).map (· + 1)
  /-- Each text spells the pieces and the clause of the page. -/
  spelled : ∀ d, (q d).sql = Piece.spellAll d body ++ pageText d window ordered
  /-- Each text is read as the pieces and the clause of the page. -/
  read : ∀ d, lex d (q d).sql.toList =
    some (body.flatMap (Piece.lexemes d) ++ (pageText d window ordered).toList.map .text)
  /-- There are as many values in each query. -/
  lengths : ∀ d, (q d).params.length = types.length
  /-- Apart from stored booleans the values are the same. -/
  values : ∀ d, (q d).params = List.zipWith d.booleans.store types (q .postgres).params

/-- A page token is spelled as the clause of the page. -/
theorem renderFrom_page (d : Dialect) (n : Nat) (window : Option Window) (ordered : Bool) :
    renderFrom d n (page window ordered) = pageText d window ordered := by
  cases window with
  | none => rfl
  | some w =>
      cases d <;> cases ordered <;> simp [page, renderFrom, Token.render, Dialect.window, pageText]

theorem lexemesFrom_page (d : Dialect) (n : Nat) (window : Option Window) (ordered : Bool) :
    lexemesFrom d n (page window ordered) = (pageText d window ordered).toList.map .text := by
  rw [← renderFrom_page d n]
  cases window with
  | none => rfl
  | some w => simp [page, lexemesFrom, renderFrom, Token.lexemes, String.toList_append]

theorem lexemesFrom_append (d : Dialect) (n : Nat) (s t : Statement) :
    lexemesFrom d n (s ++ t) = lexemesFrom d n s ++ lexemesFrom d (n + slots s) t := by
  induction s generalizing n with
  | nil => rfl
  | cons a rest ih =>
      rw [List.cons_append, lexemesFrom, lexemesFrom, ih, List.append_assoc]
      cases slot : a.isSlot
      · simp [slot, slots]
      · simp [slot, slots, Nat.add_comm, Nat.add_left_comm]

theorem slots_append_page (s : Statement) (window : Option Window) (ordered : Bool) :
    slots (s ++ page window ordered) = slots s := by
  cases window <;> simp [slots, page, Token.isSlot]

/-- A spaced statement of read words with a page at its end is spelled alike. -/
theorem alike_of_spaced {body : Statement} {window : Option Window} {ordered : Bool}
    {values : List (ColumnType × Json)} (spaced : Spaced (body ++ page window ordered))
    (written : WrittenIn statementWords body) (order : .text " ORDER BY " ∈ body ↔ ordered = true)
    (bound : ∀ d, params d (body ++ page window ordered) =
      values.map fun entry => coerceWrite entry.1 entry.2 d.booleans) :
    Alike (fun d => (body ++ page window ordered).compile d) (piecesFrom 0 body) window ordered
      (values.map Prod.fst) := by
  have count : slots body = values.length := by
    have lengths := congrArg List.length (bound .postgres)
    rwa [length_params, List.length_map, slots_append_page] at lengths
  constructor
  · intro word member
    exact written _ ((word_mem_piecesFrom 0).1 member)
  · rw [word_mem_piecesFrom, order]
  · rw [places_piecesFrom, count, List.length_map]
    simp
  · intro d
    have text := renderFrom_append d 0 body (page window ordered)
    rw [renderFrom_page, spelled_piecesFrom written] at text
    exact text
  · intro d
    have lexed := lex_render spaced d
    rw [lexemes, lexemesFrom_append, lexemesFrom_page, lexemes_piecesFrom written] at lexed
    exact lexed
  · intro d
    exact (congrArg List.length (bound d)).trans (by simp)
  · intro d
    refine (bound d).trans ?_
    rw [values_alike]
    exact congrArg _ (bound .postgres).symm

theorem isEmpty_order (s : Schema) (sort : List SortCondition) :
    (order s sort).isEmpty = !makesOrder sort := by
  have terms : ((sort.filter fun c => !c.isDeep).map fun c =>
      qualified s.table c.column ++ [.text (" " ++ c.direction.keyword)]).isEmpty =
        !makesOrder sort := by
    rw [makesOrder, Bool.eq_iff_iff]
    simp
  unfold order
  simp only [terms]
  cases makesOrder sort <;> rfl

/-- An order that is there begins with its word. -/
theorem text_mem_order (s : Schema) (sort : List SortCondition) :
    .text " ORDER BY " ∈ order s sort ↔ makesOrder sort = true := by
  have empty := isEmpty_order s sort
  unfold order at empty ⊢
  simp only at empty ⊢
  split
  · next none =>
    rw [if_pos none] at empty
    simpa using empty
  · next some =>
    rw [if_neg some] at empty
    simpa using empty

/-- The clauses of a read are written in its words, and its order is that of the last one. -/
theorem written_clauses {head filter tail : Statement} (first : WrittenIn headWords head)
    (filtered : WrittenIn conditionWords filter) (last : WrittenIn orderWords tail) :
    WrittenIn statementWords (head ++ (filter ++ tail)) ∧
      (.text " ORDER BY " ∈ head ++ (filter ++ tail) ↔ .text " ORDER BY " ∈ tail) := by
  constructor
  · refine (first.mono ?_).append ((filtered.mono ?_).append (last.mono ?_))
    · exact fun word member => List.mem_append_left _ (List.mem_append_left _ member)
    · exact fun word member => List.mem_append_left _ (List.mem_append_right _ member)
    · exact fun word member => List.mem_append_right _ member
  · have before : Token.text " ORDER BY " ∉ head := first.not_mem (by decide)
    have between : Token.text " ORDER BY " ∉ filter := filtered.not_mem (by decide)
    simp [before, between]

/-- What is bound for some conditions are their values as the dialect stores them. -/
theorem params_of_binds {s : Schema} {nodes : List RelationNode} {cs : List WhereCondition}
    {st : Statement} {d : Dialect} (binds : (st.compile d).Binds d (cs.flatMap (bindings d s nodes))) :
    params d st = (cs.flatMap (typedValues s nodes)).map
      fun entry => coerceWrite entry.1 entry.2 d.booleans := by
  refine binds.1.trans ?_
  rw [List.map_flatMap, List.map_flatMap]
  exact List.flatMap_congr fun c _ => map_snd_bindings d s nodes c

theorem alike_select {s : Schema} {fields : Option (List String)} {nodes : List RelationNode}
    {cs : List WhereCondition} {sort : List SortCondition} {window : Option Window} {st : Statement}
    (compiled : select s fields nodes cs sort window = .ok st) :
    ∃ body, Alike (fun d => st.compile d) body window (makesOrder sort)
      ((cs.flatMap (typedValues s nodes)).map Prod.fst) := by
  have spaced := spaced_select compiled
  have bound (d : Dialect) := params_of_binds (select_spec compiled d).2
  obtain ⟨filter, filtered, rfl⟩ := select_clauses compiled
  obtain ⟨written, order⟩ := written_clauses (written_selectHead s fields nodes)
    (written_conditions filtered) (written_order s sort)
  have ordered : (!(Statement.order s sort).isEmpty) = makesOrder sort := by
    rw [isEmpty_order, Bool.not_not]
  have clauses : selectHead s fields nodes ++ (filter ++ (Statement.order s sort ++
      page window (makesOrder sort))) = selectHead s fields nodes ++ (filter ++
        Statement.order s sort) ++ page window (makesOrder sort) := by
    simp only [List.append_assoc]
  rw [ordered, clauses] at spaced bound ⊢
  exact ⟨_, alike_of_spaced spaced written (order.trans (text_mem_order s sort)) bound⟩

theorem alike_count {s : Schema} {nodes : List RelationNode} {cs : List WhereCondition}
    {st : Statement} (compiled : count s nodes cs = .ok st) :
    ∃ body, Alike (fun d => st.compile d) body none false
      ((cs.flatMap (typedValues s nodes)).map Prod.fst) := by
  have spaced := spaced_count compiled
  have bound (d : Dialect) := params_of_binds (count_spec compiled d).2
  obtain ⟨filter, filtered, rfl⟩ := count_clauses compiled
  have head : WrittenIn headWords (countHead s nodes) := written_source (by decide) s nodes
  obtain ⟨written, order⟩ := written_clauses head (written_conditions filtered) (written_nil _)
  have clauses : countHead s nodes ++ (filter ++ []) =
      countHead s nodes ++ (filter ++ []) ++ page none false := (List.append_nil _).symm
  rw [clauses] at spaced bound ⊢
  exact ⟨_, alike_of_spaced spaced written (order.trans (by simp)) bound⟩

/-- **The dialects refuse a read alike, or spell it alike**: either each refuses it with the same
error, or their queries spell the same pieces, with a stand-in for the order exactly where a page needs
one and no clause makes one, and bind the same values apart from stored booleans. -/
theorem reads_alike (s : Schema) (nodes : List RelationNode) (cs : List WhereCondition) :
    (∀ fields sort window,
      (∃ e, ∀ d, Statement.compile d <$> select s fields nodes cs sort window = .error e) ∨
      ∃ q body, (∀ d, Statement.compile d <$> select s fields nodes cs sort window = .ok (q d)) ∧
        Alike q body window (makesOrder sort)
          ((cs.flatMap (typedValues s nodes)).map Prod.fst)) ∧
    ((∃ e, ∀ d, Statement.compile d <$> count s nodes cs = .error e) ∨
      ∃ q body, (∀ d, Statement.compile d <$> count s nodes cs = .ok (q d)) ∧
        Alike q body none false ((cs.flatMap (typedValues s nodes)).map Prod.fst)) := by
  constructor
  · intro fields sort window
    cases compiled : select s fields nodes cs sort window with
    | error e => exact .inl ⟨e, fun _ => rfl⟩
    | ok st =>
        obtain ⟨body, alike⟩ := alike_select compiled
        exact .inr ⟨_, body, fun _ => rfl, alike⟩
  · cases compiled : count s nodes cs with
    | error e => exact .inl ⟨e, fun _ => rfl⟩
    | ok st =>
        obtain ⟨body, alike⟩ := alike_count compiled
        exact .inr ⟨_, body, fun _ => rfl, alike⟩

end Statement

end DataAccess
