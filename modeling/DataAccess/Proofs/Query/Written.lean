import DataAccess.Proofs.Query.Integers
import DataAccess.Proofs.Query.Joins
import DataAccess.Proofs.Query.Requests
/-
**Requests as they are written.**  A request on one table has one plain way to be written down: a
list of fields, a parameter for each condition with its operator in brackets, a list of sort clauses,
a limit and an offset.  Four notations share their delimiters and the names of parameters, and still
what is written this way is read back as what was meant.

Main definitions:

* `TextCondition`, `PlainRequest` — a condition with a text as its operand, and a request;
* `PlainRequest.params` — the request as it is written;
* `PlainRequest.Writable` — what is asked of its names and numbers;
* `PlainRequest.meant` — the query that it means, once its conditions are checked.

Main results:

* `splitList_join` — written names are read back;
* `Schema.validateFields_names`, `Schema.parseSort_tokens` — so are fields and sort clauses;
* `SchemaRegistry.foldlM_readParam_conditions`, `TextCondition.ofParam_name` — and conditions;
* `SchemaRegistry.parseQuery_params` — **a written request is read back as it was meant, or refused
  for the first condition that does not hold up**.
-/

set_option autoImplicit false

namespace DataAccess

/-! ### Plain requests -/

/-- A condition on the base table with a text as its operand. -/
structure TextCondition where
  column : String
  operator : Operator
  text : String

namespace TextCondition

/-- The condition. -/
def toWhere (c : TextCondition) : WhereCondition := ⟨c.column, c.operator, .string c.text⟩

/-- The name of its parameter. -/
def name (c : TextCondition) : String := c.column ++ "[" ++ c.operator.name ++ "]"

end TextCondition

namespace SortCondition

/-- The last part of a written sort clause. -/
def suffix : Direction → String
  | .ascending => "asc"
  | .descending => "desc"

/-- A sort clause as it is written. -/
def token (c : SortCondition) : String := c.column ++ "." ++ suffix c.direction

end SortCondition

/-- A request on one table, before its conditions are checked. -/
structure PlainRequest where
  /-- Without any, every field is asked for. -/
  fields : List String
  conditions : List TextCondition
  sort : List SortCondition
  limit : Nat
  offset : Nat

/-- A name that can stand in a list of names. -/
structure ListName (name : String) : Prop where
  filled : name ≠ ""
  undotted : '.' ∉ name.toList
  whole : ',' ∉ name.toList
  trimmed : Text.trimmed name = name

namespace PlainRequest

/-- The request as it is written. -/
def params (q : PlainRequest) : List (String × String) :=
  ("fields", Text.join "," q.fields) ::
    (q.conditions.map (fun c => (c.name, c.text)) ++
      [("sort", Text.join "," (q.sort.map SortCondition.token)), ("limit", toString q.limit),
        ("offset", toString q.offset)])

/-- The fields are different columns and the sort clauses are on columns, all under names that can
stand in a list; the columns of conditions have names without dots and opening brackets, and the
numbers fit 64 bits and the bound of a page. -/
structure Writable (q : PlainRequest) (l : QueryLimits) (s : Schema) : Prop where
  distinct : q.fields.Nodup
  fields : ∀ field ∈ q.fields, s.hasColumn field = true ∧ ListName field
  sort : ∀ c ∈ q.sort, s.hasColumn c.column = true ∧ ListName c.column
  conditions : ∀ c ∈ q.conditions, '.' ∉ c.column.toList ∧ '[' ∉ c.column.toList
  limit : 1 ≤ q.limit ∧ q.limit ≤ l.greatest
  words : q.limit < 2 ^ 64 ∧ q.offset < 2 ^ 64

/-- The query that the request means, with its conditions as they were checked. -/
def meant (q : PlainRequest) (checked : List WhereCondition) : Query :=
  { fields := if q.fields = [] then none else some q.fields
    relations := []
    conditions := checked
    sort := q.sort
    limit := q.limit
    offset := q.offset }

end PlainRequest

/-! ### Lists of names -/

namespace Text

/-- Joined names split into the names. -/
theorem splitOn_join {items : List String} (some : items ≠ [])
    (free : ∀ item ∈ items, ',' ∉ item.toList) : splitOn ',' (join "," items) = items := by
  have letters : (join "," items).toList = [','].intercalate (items.map String.toList) :=
    String.toList_intercalate
  have pieces : ∀ item ∈ items.map String.toList, ',' ∉ item := by
    intro item member
    obtain ⟨name, there, rfl⟩ := List.mem_map.1 member
    exact free name there
  rw [splitOn, letters, split_intercalate (by simpa using some) pieces, List.map_map]
  exact List.map_id'' (fun name => String.ofList_toList) items

/-- A text that is trimmed does not begin with a blank. -/
theorem isBlank_head {s : String} (trimmed_s : trimmed s = s) :
    ∀ c ∈ s.toList.head?, isBlank c = false := by
  have letters : trim s.toList = s.toList := by
    rw [← String.toList_inj, trimmed, String.toList_ofList] at trimmed_s
    exact trimmed_s
  intro c first
  cases blank : isBlank c with
  | false => rfl
  | true =>
      -- the blank would be gone, and nothing takes its place
      obtain ⟨rest, begins⟩ := List.head?_eq_some_iff.1 first
      have shorter (s : List Char) : (trimStart s).length ≤ s.length :=
        (List.dropWhile_sublist isBlank).length_le
      have once : trimStart (c :: rest) = trimStart rest := by
        simp only [trimStart, List.dropWhile_cons, blank, if_true]
      have lengths := congrArg List.length letters
      rw [begins, trim, once, List.length_reverse, List.length_cons] at lengths
      have back := shorter (trimStart rest).reverse
      have front := shorter rest
      rw [List.length_reverse] at back
      omega

end Text

/-- Written names are read back. -/
theorem splitList_join {names : List String}
    (clean : ∀ name ∈ names, name ≠ "" ∧ ',' ∉ name.toList ∧ Text.trimmed name = name) :
    splitList (Text.join "," names) = names := by
  rw [splitList]
  cases names with
  | nil => rfl
  | cons first rest =>
      rw [Text.splitOn_join (List.cons_ne_nil first rest) fun name member => (clean name member).2.1]
      have trimmed : (first :: rest).map Text.trimmed = first :: rest :=
        (List.map_congr_left fun name member => (clean name member).2.2).trans (List.map_id _)
      rw [trimmed]
      refine List.filter_eq_self.2 ?_
      intro name member
      exact decide_eq_true (clean name member).1

theorem ListName.clean {name : String} (h : ListName name) :
    name ≠ "" ∧ ',' ∉ name.toList ∧ Text.trimmed name = name :=
  ⟨h.filled, h.whole, h.trimmed⟩

/-! ### Fields and sort clauses -/

namespace SortCondition

/-- A written sort clause can stand in a list as well. -/
theorem clean_token {c : SortCondition} (column : ListName c.column) :
    c.token ≠ "" ∧ ',' ∉ c.token.toList ∧ Text.trimmed c.token = c.token := by
  obtain ⟨first, rest, letters⟩ :=
    List.exists_cons_of_ne_nil (mt String.toList_eq_nil_iff.1 column.filled)
  obtain ⟨before, last, ending, unblank, plain⟩ : ∃ (before : List Char) (last : Char),
      '.' :: (suffix c.direction).toList = before ++ [last] ∧ Text.isBlank last = false ∧
        ',' ∉ '.' :: (suffix c.direction).toList := by
    cases c.direction with
    | ascending => exact ⟨['.', 'a', 's'], 'c', rfl, by decide, by decide⟩
    | descending => exact ⟨['.', 'd', 'e', 's'], 'c', rfl, by decide, by decide⟩
  have written : c.token.toList = c.column.toList ++ '.' :: (suffix c.direction).toList := by
    rw [token, String.toList_append, String.toList_append, List.append_assoc]
    rfl
  refine ⟨?_, ?_, ?_⟩
  · intro empty
    rw [empty, letters] at written
    exact absurd written (by simp)
  · rw [written, List.mem_append]
    rintro (inside | inside)
    · exact column.whole inside
    · exact plain inside
  · have same : Text.trim c.token.toList = c.token.toList := by
      refine Text.trim_eq_self ?_ ?_
      · intro d begins
        refine Text.isBlank_head column.trimmed d ?_
        rw [written, letters] at begins
        rw [letters]
        exact begins
      · intro d ends
        rw [written, ending, ← List.append_assoc, List.getLast?_append] at ends
        obtain rfl : last = d := by simpa using ends
        exact unblank
    rw [Text.trimmed, same, String.ofList_toList]

end SortCondition

theorem eraseDups_of_nodup {names : List String} (distinct : names.Nodup) :
    names.eraseDups = names := by
  induction names with
  | nil => rfl
  | cons name rest ih =>
      obtain ⟨new, distinct⟩ := List.nodup_cons.1 distinct
      have others : rest.filter (fun other => !other == name) = rest := by
        refine List.filter_eq_self.2 fun other member => ?_
        have different : other ≠ name := ne_of_mem_of_not_mem member new
        simpa using different
      rw [List.eraseDups_cons, others, ih distinct]

namespace Schema

variable {s : Schema}

/-- Different columns are plain fields. -/
theorem validateFields_names {fields : List String} (distinct : fields.Nodup)
    (known : ∀ field ∈ fields, s.hasColumn field = true ∧ '.' ∉ field.toList) :
    s.validateFields fields = .ok (fields, []) := by
  have plain : fields.filter (fun field => '.' ∉ field.toList) = fields :=
    List.filter_eq_self.2 fun field member => by simpa using (known field member).2
  have deep : fields.filter (fun field => '.' ∈ field.toList) = [] :=
    List.filter_eq_nil_iff.2 fun field member => by simpa using (known field member).2
  rw [validateFields_iff, plain, deep, eraseDups_of_nodup distinct]
  exact ⟨fun field member _ => (known field member).1, rfl, rfl⟩

/-- A written sort clause is read back. -/
theorem parseSortToken_token {c : SortCondition} (column : s.hasColumn c.column = true)
    (undotted : '.' ∉ c.column.toList) : s.parseSortToken c.token = .ok (some c) := by
  obtain ⟨name, direction⟩ := c
  have plain : '.' ∉ (SortCondition.suffix direction).toList := by
    cases direction <;> decide
  have cut : Text.cutLast '.' (SortCondition.token ⟨name, direction⟩) =
      some (name, SortCondition.suffix direction) := Text.cutLast_dotted plain name
  rw [parseSortToken, cut]
  cases direction with
  | ascending => simp [SortCondition.suffix, column, undotted]
  | descending => simp [SortCondition.suffix, column, undotted]

/-- Written sort clauses are read back. -/
theorem parseSort_tokens {sort : List SortCondition}
    (known : ∀ c ∈ sort, s.hasColumn c.column = true ∧ ListName c.column) :
    s.parseSort (Text.join "," (sort.map SortCondition.token)) = .ok sort := by
  have clean : ∀ token ∈ sort.map SortCondition.token,
      token ≠ "" ∧ ',' ∉ token.toList ∧ Text.trimmed token = token := by
    intro token member
    obtain ⟨c, there, rfl⟩ := List.mem_map.1 member
    exact c.clean_token (known c there).2
  have each : (sort.map SortCondition.token).mapM s.parseSortToken = .ok (sort.map some) := by
    clear clean
    induction sort with
    | nil => rfl
    | cons c rest ih =>
        obtain ⟨⟨column, name⟩, others⟩ := List.forall_mem_cons.1 known
        exact Outcome.mapM_cons_eq_ok.2
          ⟨some c, rest.map some, parseSortToken_token column name.undotted, ih others, rfl⟩
  rw [parseSort, splitList_join clean, each]
  have all : (sort.map some).filterMap id = sort := by simp [List.filterMap_map]
  exact congrArg Except.ok all

end Schema

/-! ### Conditions -/

namespace TextCondition

/-- A written condition is read back. -/
theorem ofParam_name {c : TextCondition} (free : '[' ∉ c.column.toList) :
    WhereCondition.ofParam c.name c.text = c.toWhere := by
  have letters : c.name.toList =
      c.column.toList ++ '[' :: (c.operator.name.toList ++ [']']) := by
    simp [name]
  rw [WhereCondition.ofParam_bracketed free letters, String.ofList_toList, String.ofList_toList,
    Operator.ofNameOrEquals, Operator.ofName?_name]
  rfl

end TextCondition

/-- The name of a condition is none of the reserved ones, whatever its column is called. -/
theorem TextCondition.name_not_mem_reserved (c : TextCondition) : c.name ∉ reservedNames := by
  have bracket : ']' ∈ c.name.toList := by simp [name]
  have plain : ∀ reserved ∈ reservedNames, ']' ∉ reserved.toList := by decide
  exact fun member => plain c.name member bracket

namespace SchemaRegistry

variable {m : Type → Type} [Monad m] [LawfulMonad m] (r : SchemaRegistry m) {l : QueryLimits}
  {s : Schema}

/-- Written conditions are collected in order. -/
theorem foldlM_readParam_conditions {conditions : List TextCondition}
    (free : ∀ c ∈ conditions, '[' ∉ c.column.toList) (d : QueryDraft) :
    (conditions.map fun c => (c.name, c.text)).foldlM (r.readParam l s) d =
      pure { d with conditions := d.conditions ++ conditions.map TextCondition.toWhere } := by
  induction conditions generalizing d with
  | nil =>
      rw [List.map_nil, List.map_nil, List.append_nil]
      rfl
  | cons c rest ih =>
      obtain ⟨here, there⟩ := List.forall_mem_cons.1 free
      rw [List.map_cons, List.foldlM_cons, r.readParam_unreserved c.name_not_mem_reserved,
        pure_bind, ih there, c.ofParam_name here, List.append_assoc]
      rfl

/-- Conditions on the base table ask the registry for nothing. -/
theorem mapM_validateWhere_flat {conditions : List WhereCondition}
    (flat : ∀ c ∈ conditions, c.isDeep = false) :
    conditions.mapM (r.validateWhere s) =
      (liftExcept (conditions.mapM s.validateCondition) : Resolving m (List WhereCondition)) := by
  induction conditions with
  | nil => rfl
  | cons c rest ih =>
      obtain ⟨here, there⟩ := List.forall_mem_cons.1 flat
      have base : r.validateWhere s c = liftExcept (s.validateCondition c) := by
        rw [validateWhere, here]
        rfl
      rw [List.mapM_cons, List.mapM_cons, base, ih there, liftExcept_bind]
      refine bind_congr fun checked => ?_
      rw [liftExcept_bind]
      rfl

end SchemaRegistry

/-! ### The whole request -/

/-- A written number is read back. -/
theorem parseCount_toString {n : Nat} (word : n < 2 ^ 64) (name : String) :
    parseCount name (toString n) = .ok n := by
  have letters : (toString n).toList = Nat.toDigits 10 n := String.toList_ofList
  rw [parseCount, letters, trim_toDigits, parseUnsigned?_toDigits, if_pos word]

theorem QueryLimits.check_eq_ok {l : QueryLimits} {limit : Nat} (positive : 1 ≤ limit)
    (bounded : limit ≤ l.greatest) : l.check limit = .ok limit := by
  rw [check, if_neg (Nat.ne_of_gt positive), if_neg (Nat.not_lt.2 bounded)]

/-- What a written request is read as before its conditions are checked. -/
def PlainRequest.draft (q : PlainRequest) : QueryDraft :=
  { fields := if q.fields = [] then none else some q.fields
    conditions := q.conditions.map TextCondition.toWhere
    sort := q.sort
    limit := q.limit
    offset := q.offset }

namespace SchemaRegistry

variable {m : Type → Type} [Monad m] [LawfulMonad m] (r : SchemaRegistry m) {l : QueryLimits}
  {s : Schema} {q : PlainRequest}

/-- The fields come first, when none are asked for yet. -/
theorem readParam_fields (h : q.Writable l s) :
    r.readParam l s (QueryDraft.start l) ("fields", Text.join "," q.fields) =
      pure { QueryDraft.start l with fields := if q.fields = [] then none else some q.fields } := by
  have tokens : splitList (Text.join "," q.fields) = q.fields :=
    splitList_join fun field member => (h.fields field member).2.clean
  have plain := Schema.validateFields_names h.distinct fun field member =>
    ⟨(h.fields field member).1, (h.fields field member).2.undotted⟩
  simp only [readParam, tokens, plain]
  refine (pure_bind (q.fields, []) _).trans ((pure_bind () _).trans ?_)
  cases q.fields with
  | nil => rfl
  | cons first rest => rfl

/-- The parameters of a written request are read as its parts. -/
theorem foldlM_readParam_params (h : q.Writable l s) :
    q.params.foldlM (r.readParam l s) (QueryDraft.start l) = pure q.draft := by
  have sort (d : QueryDraft) :
      r.readParam l s d ("sort", Text.join "," (q.sort.map SortCondition.token)) =
        pure { d with sort := d.sort ++ q.sort } := by
    simp only [readParam, Schema.parseSort_tokens h.sort]
    exact pure_bind q.sort _
  have limit (d : QueryDraft) :
      r.readParam l s d ("limit", toString q.limit) = pure { d with limit := q.limit } := by
    have number : parseCount "limit" (toString q.limit) >>= l.check = .ok q.limit := by
      rw [parseCount_toString h.words.1]
      exact QueryLimits.check_eq_ok h.limit.1 h.limit.2
    simp only [readParam, number]
    exact pure_bind q.limit _
  have offset (d : QueryDraft) :
      r.readParam l s d ("offset", toString q.offset) = pure { d with offset := q.offset } := by
    simp only [readParam, parseCount_toString h.words.2]
    exact pure_bind q.offset _
  have conditions := fun d => r.foldlM_readParam_conditions (l := l) (s := s)
    (fun c member => (h.conditions c member).2) d
  rw [PlainRequest.params, List.foldlM_cons, r.readParam_fields h, pure_bind, List.foldlM_append,
    conditions, pure_bind, List.foldlM_cons, sort, pure_bind, List.foldlM_cons, limit, pure_bind,
    List.foldlM_cons, offset, pure_bind, List.foldlM_nil]
  rfl

/-- A written request is its parts with the conditions checked one after another. -/
theorem parseQuery_eq (h : q.Writable l s) : r.parseQuery l s q.params =
    liftExcept (q.meant <$> (q.conditions.map TextCondition.toWhere).mapM s.validateCondition) := by
  have flat : ∀ c ∈ q.conditions.map TextCondition.toWhere, c.isDeep = false := by
    intro c member
    obtain ⟨written, there, rfl⟩ := List.mem_map.1 member
    simpa [WhereCondition.isDeep, TextCondition.toWhere] using (h.conditions written there).1
  have reading : (do
      let draft ← q.params.foldlM (r.readParam l s) (QueryDraft.start l)
      let conditions ← draft.conditions.mapM (r.validateWhere s)
      return { draft with conditions, relations := ← get } : Resolving m Query) = (do
      let conditions ← liftExcept ((q.conditions.map TextCondition.toWhere).mapM s.validateCondition)
      return { q.meant conditions with relations := ← get }) := by
    rw [r.foldlM_readParam_params h, pure_bind]
    change (q.conditions.map TextCondition.toWhere).mapM (r.validateWhere s) >>= _ = _
    rw [r.mapM_validateWhere_flat flat]
    rfl
  have parts : r.parseQuery l s q.params = ExceptT.lift ((do
      let draft ← q.params.foldlM (r.readParam l s) (QueryDraft.start l)
      let conditions ← draft.conditions.mapM (r.validateWhere s)
      return { draft with conditions, relations := ← get } : Resolving m Query).run.run []) >>=
        fun p => liftExcept p.1 := rfl
  have settled {x : Resolving m Query} {result : Outcome Query}
      (run : x.run.run [] = pure (result, [])) :
      (ExceptT.lift (x.run.run []) >>= fun p => liftExcept p.1 : ExceptT DataError m Query) =
        liftExcept result := by
    have lifted : (ExceptT.lift (pure (result, [])) :
        ExceptT DataError m (Outcome Query × List RelationNode)) = pure (result, []) :=
      ExceptT.ext (by simp)
    rw [run, lifted, pure_bind]
  rw [parts, reading]
  cases (q.conditions.map TextCondition.toWhere).mapM s.validateCondition with
  | error e =>
      refine settled ?_
      have fails : (do
          let conditions ← liftExcept (.error e : Outcome (List WhereCondition))
          return { q.meant conditions with relations := ← get } : Resolving m Query) =
            liftExcept (.error e : Outcome Query) :=
        liftExcept_error_bind e _
      rw [fails]
      rfl
  | ok checked =>
      refine settled ?_
      have returns : (do
          let conditions ← liftExcept (.ok checked : Outcome (List WhereCondition))
          return { q.meant conditions with relations := ← get } : Resolving m Query) =
            (do return { q.meant checked with relations := ← get }) :=
        pure_bind checked _
      rw [returns]
      have got : (get : Resolving m (List RelationNode)).run.run [] = pure (.ok [], []) :=
        (pure_bind ([], []) _).trans rfl
      rw [ExceptT.run_bind, StateT.run_bind, got, pure_bind]
      rfl

/-- A written request is read back as it was meant, its conditions as their operands are understood,
and asks the registry for nothing; when a condition does not hold up, the first such refuses it. -/
theorem parseQuery_params (config : Config) (h : q.Writable config.limits s) :
    (∀ checked, List.Forall₂ (fun c validated => s.validateCondition c.toWhere = .ok validated)
        q.conditions checked →
      r.parseQuery config.limits s q.params = pure (q.meant checked)) ∧
    ∀ before c after e, q.conditions = before ++ c :: after →
      (∀ b ∈ before, ∃ validated, s.validateCondition b.toWhere = .ok validated) →
      s.validateCondition c.toWhere = .error e →
      r.parseQuery config.limits s q.params = throw e := by
  have parsed := r.parseQuery_eq h
  rw [List.mapM_map] at parsed
  constructor
  · intro checked each
    have validated : q.conditions.mapM (s.validateCondition ∘ TextCondition.toWhere) = .ok checked :=
      Outcome.mapM_eq_ok_of_forall₂ each
    rw [parsed, validated]
    rfl
  · intro before c after e split fine failed
    have refused : q.conditions.mapM (s.validateCondition ∘ TextCondition.toWhere) = .error e := by
      rw [split]
      exact Outcome.mapM_eq_error_of_first fine failed
    rw [parsed, refused]
    rfl

/-! ### Columns named like parameters -/

/-- Shelves, whose columns are called as the parameters of requests are. -/
def shelves : Schema := .ofColumns "shelves" [.plain "limit" .number, .plain "sort" .string] []

/-- Shelves with a limit above a number. -/
def roomy (number : String) : PlainRequest :=
  { fields := ["sort", "limit"]
    conditions := [⟨"sort", .search, "a]b"⟩, ⟨"limit", .gt, number⟩]
    sort := [⟨"limit", .descending⟩]
    limit := 7
    offset := 20 }

theorem writable_roomy (number : String) :
    (roomy number).Writable (Config.ofBackend .postgres).limits shelves where
  distinct := by simp [roomy]
  fields := by
    have names : ListName "sort" ∧ ListName "limit" := by
      constructor <;> exact ⟨by decide, by decide, by decide, by decide⟩
    simp only [roomy, List.forall_mem_cons, List.not_mem_nil, false_imp_iff, implies_true, and_true]
    exact ⟨⟨by decide, names.1⟩, by decide, names.2⟩
  sort := by
    have name : ListName "limit" := ⟨by decide, by decide, by decide, by decide⟩
    simp only [roomy, List.forall_mem_cons, List.not_mem_nil, false_imp_iff, implies_true, and_true]
    exact ⟨by decide, name⟩
  conditions := by
    simp only [roomy, List.forall_mem_cons, List.not_mem_nil, false_imp_iff, implies_true, and_true]
    decide
  limit := ⟨by simp [roomy], by simp [roomy, Config.ofBackend, Config.limits]⟩
  words := by simp [roomy]

/-- A limit that is a number is read back as one, and any other text is refused. -/
theorem parseQuery_roomy :
    offices.parseQuery (Config.ofBackend .postgres).limits shelves (roomy "5").params =
      pure ((roomy "5").meant
        [⟨"sort", .search, .string "a]b"⟩, ⟨"limit", .gt, .number (.integer 5)⟩]) ∧
    offices.parseQuery (Config.ofBackend .postgres).limits shelves (roomy "five").params =
      throw (.validation "limit must be a number") := by
  constructor
  · refine (offices.parseQuery_params (.ofBackend .postgres) (writable_roomy "5")).1 _ ?_
    have pattern : shelves.validateCondition ⟨"sort", .search, .string "a]b"⟩ =
        .ok ⟨"sort", .search, .string "a]b"⟩ := by rfl
    have read : coerceNumber (.string "5") = some (.number (.integer 5)) :=
      coerceNumber_toString (n := 5) (by decide)
    have checked : checkValue (.plain "limit" .number) (.string "5") = .ok (.number (.integer 5)) := by
      rw [checkValue, read]
      rfl
    have valid : shelves.validateValue "limit" (.string "5") = .ok (.number (.integer 5)) :=
      congrArg (Except.mapError fun issue => .validation issue.message) checked
    have number : shelves.validateCondition ⟨"limit", .gt, .string "5"⟩ =
        .ok ⟨"limit", .gt, .number (.integer 5)⟩ :=
      congrArg (Except.map fun value => WhereCondition.mk "limit" .gt value) valid
    exact .cons pattern (.cons number .nil)
  · refine (offices.parseQuery_params (.ofBackend .postgres) (writable_roomy "five")).2
      [⟨"sort", .search, "a]b"⟩] ⟨"limit", .gt, "five"⟩ [] _ rfl ?_
      (Outcome.failsWith_iff.1 (by decide +kernel))
    intro b member
    rw [List.mem_singleton.1 member]
    exact ⟨_, rfl⟩

end SchemaRegistry

end DataAccess
