import Mathlib.Data.List.Nodup
import DataAccess.Proofs.Outcome
import DataAccess.Proofs.Sql.Definitions
/-
**Creating a table.**  The statements that create a table come in three runs: the types of the enum
columns, the table itself, and its foreign keys.  All of them read back, whatever the names, the values
and the defaults are, so what they declare can be compared with the schema: as many primary keys as
columns are flagged, and a type for each enum column that has values.

Main definitions:

* `readEnumType?` — reading a statement that creates a type;
* `Dialect.Links`, `Dialect.Defines` — a foreign key and a definition, as they read;
* `Dialect.tableStatement` — the statement in the middle;
* `Dialect.keys` — the columns that definitions make primary keys;
* `TypeCreated` — the type that a definition names is created, once, with the values of the column.

Main results:

* `Dialect.createdTypes` — the types that are created, read back;
* `Dialect.createTable_eq_ok`, `Dialect.exists_createTable_iff` — the statements, and when there are any;
* `Dialect.createTable_keys` — **what a table is created as, and when it has one primary key**;
* `Dialect.createTable_types` — **when the types that it uses are created**.
-/

set_option autoImplicit false

namespace DataAccess

/-! ### Types -/

/-- The name and the values of the type that a statement creates. -/
def readEnumType? (statement : String) : Option (String × List String) := do
  let rest ← after? "CREATE TYPE " statement.toList
  let (.named ident, rest) ← readType? .postgres rest | none
  let rest ← after? " AS ENUM (" rest
  let (values, [')']) ← readLiterals? rest | none
  some (ident, values)

/-- The type that is created has the name and the values that were written. -/
theorem readEnumType?_written (ident : String) {values : List String} (filled : values ≠ []) :
    readEnumType? ("CREATE TYPE " ++ Dialect.postgres.quote ident ++ " AS ENUM (" ++
      Text.join ", " (values.map literal) ++ ")") = some (ident, values) := by
  obtain ⟨first, rest, rfl⟩ := List.exists_cons_of_ne_nil filled
  have listed : readLiterals? ((Text.join ", " ((first :: rest).map literal)).toList ++ [')']) =
      some (first :: rest, [')']) := readLiterals?_join first rest (by simp)
  have spaced : AtBlank (" AS ENUM (".toList ++
      ((Text.join ", " ((first :: rest).map literal)).toList ++ [')'])) := by
    simp [AtBlank]
  have closing : ")".toList = [')'] := rfl
  simp only [readEnumType?, String.append_assoc, String.toList_append, closing]
  rw [after?_eq_some.2 rfl]
  simp only [Option.bind_eq_bind, Option.bind_some]
  rw [readType?_quote ident spaced]
  simp only [Option.bind_some]
  rw [after?_eq_some.2 rfl]
  simp only [Option.bind_some]
  rw [listed]
  rfl

namespace Dialect

/-- A type is created for an enum column with values, and reads back as its name and the values. -/
theorem enumType_eq_some {d : Dialect} {table statement : String} {c : Column}
    (created : d.enumType table c = some statement) :
    d = .postgres ∧ c.type = .enum ∧ c.values ≠ [] ∧
      readEnumType? statement = some (enumTypeName table c, c.values) := by
  rw [enumType.eq_def] at created
  split at created
  · next kind =>
    split at created
    · next listed literals =>
      obtain ⟨filled, rfl⟩ := enumLiterals_eq_ok.1 literals
      obtain rfl := Option.some.inj created
      refine ⟨rfl, kind, filled, ?_⟩
      simpa [toString, String.append_assoc] using readEnumType?_written (enumTypeName table c) filled
    · exact absurd created (by simp)
  · exact absurd created (by simp)

/-- The enum columns that list some values. -/
def listing (columns : List Column) : List Column :=
  columns.filter fun c => c.type = .enum ∧ c.values ≠ []

/-- What an enum column with values, and no other, has created. -/
theorem enumType_bind (table : String) (c : Column) :
    (Dialect.postgres.enumType table c).bind readEnumType? =
      if c.type = .enum ∧ c.values ≠ [] then some (enumTypeName table c, c.values) else none := by
  cases created : Dialect.postgres.enumType table c with
  | some statement =>
      obtain ⟨-, kind, filled, read⟩ := enumType_eq_some created
      rw [if_pos ⟨kind, filled⟩]
      exact read
  | none =>
      rw [if_neg]
      · rfl
      rintro ⟨kind, filled⟩
      simp [enumType, kind, enumLiterals_eq_ok.2 ⟨filled, rfl⟩] at created

/-- The types that are created for columns: one for each enum column with values. -/
theorem createdTypes (table : String) (columns : List Column) :
    (columns.filterMap (Dialect.postgres.enumType table)).filterMap readEnumType? =
      (listing columns).map fun c => (enumTypeName table c, c.values) := by
  rw [listing, List.filterMap_filterMap, ← List.filterMap_eq_map, ← List.filterMap_eq_filter,
    List.filterMap_filterMap]
  refine List.filterMap_congr fun c _ => ?_
  rw [enumType_bind]
  by_cases created : c.type = .enum ∧ c.values ≠ [] <;> simp [created, Option.guard]

end Dialect

/-! ### Foreign keys -/

namespace Dialect

/-- The text reads as a foreign key: it names the table, its column, and the other table and column. -/
def Links (d : Dialect) (table : String) (r : Relation) (statement : String) : Prop :=
  "ALTER TABLE ".toList <+: statement.toList ∧
    (lex d statement.toList).map Lexeme.names = some [table, r.ownColumn, r.table, r.column]

/-- The parts of a foreign key. -/
def linkTokens (table : String) (r : Relation) : Statement :=
  [.text "ALTER TABLE ", .name table, .text " ADD FOREIGN KEY (", .name r.ownColumn,
    .text ") REFERENCES ", .name r.table, .text " (", .name r.column, .text ")"]

theorem links_foreignKey (d : Dialect) (table : String) (r : Relation) :
    d.Links table r (d.foreignKey table r) := by
  have written : d.foreignKey table r = (linkTokens table r).render d := by
    unfold foreignKey
    simp only [linkTokens, Statement.render, Statement.renderFrom_text,
      Statement.renderFrom_name, Statement.renderFrom_nil, String.append_assoc, String.append_empty]
  have spaced : (linkTokens table r).Spaced := by
    simp only [linkTokens, Statement.spaced_text, Statement.spaced_name, Statement.apart_text,
      Statement.spaced_nil, and_true]
    decide
  constructor
  · rw [written, Statement.render, linkTokens, Statement.renderFrom_text, String.toList_append]
    exact List.prefix_append _ _
  · rw [written, Statement.lex_render spaced, Option.map_some, Statement.names_lexemes]
    rfl

/-! ### The statements in order -/

/-- The statement that creates a table with these definitions. -/
def tableStatement (d : Dialect) (table : String) (definitions : List String) : String :=
  "CREATE TABLE " ++ d.quote table ++ " (" ++ Text.join ", " definitions ++ ")"

/-- The text reads as the definition of a column. -/
def Defines (d : Dialect) (table : String) (c : Column) (definition : String) : Prop :=
  ∃ native, d.nativeType table c = .ok native ∧
    readColumn? d definition.toList = some (c.said d table native)

/-- When there are statements, and which. -/
theorem createTable_eq_ok {d : Dialect} {s : Schema} {statements : List String} :
    d.createTable s = .ok statements ↔ s.validateStructure = .ok () ∧
      ∃ definitions, s.columns.mapM (d.columnDefinition s.table) = .ok definitions ∧
        statements = s.columns.filterMap (d.enumType s.table) ++
          d.tableStatement s.table definitions ::
            (s.relations.filter fun r => r.ownTable = s.table).map (d.foreignKey s.table) := by
  rw [createTable, Outcome.bind_eq_ok]
  constructor
  · rintro ⟨_, valid, made⟩
    obtain ⟨definitions, defined, listed⟩ := Outcome.bind_eq_ok.1 made
    refine ⟨valid, definitions, defined, ?_⟩
    rw [← Except.ok.inj listed, List.append_assoc]
    rfl
  · rintro ⟨valid, definitions, defined, rfl⟩
    refine ⟨(), valid, Outcome.bind_eq_ok.2 ⟨definitions, defined, ?_⟩⟩
    rw [List.append_cons]
    rfl

/-- Columns of a known type have a native one; one dialect writes the values into the type. -/
theorem exists_nativeType_iff {d : Dialect} {table : String} {c : Column} :
    (∃ native, d.nativeType table c = .ok native) ↔
      c.type ≠ .unknown ∧ (d = .mysql → c.type = .enum → c.values ≠ []) := by
  cases kind : c.type with
  | unknown => simp [nativeType_unknown kind]
  | enum =>
      cases d with
      | mysql =>
          simp only [nativeType, kind]
          constructor
          · rintro ⟨_, type⟩
            obtain ⟨listed, literals, -⟩ := Outcome.map_eq_ok.1 type
            exact ⟨by simp, fun _ _ => (enumLiterals_eq_ok.1 literals).1⟩
          · rintro ⟨-, filled⟩
            exact ⟨_, Outcome.map_eq_ok.2
              ⟨_, enumLiterals_eq_ok.2 ⟨filled trivial trivial, rfl⟩, rfl⟩⟩
      | postgres => simp [nativeType, kind]
      | mssql => simp [nativeType, kind]
  | number | string | boolean | date | json => cases d <;> simp [nativeType, kind]

theorem exists_columnDefinition_iff {d : Dialect} {table : String} {c : Column} :
    (∃ definition, d.columnDefinition table c = .ok definition) ↔
      ∃ native, d.nativeType table c = .ok native := by
  constructor
  · rintro ⟨_, defined⟩
    obtain ⟨native, type, -⟩ := Outcome.bind_eq_ok.1 defined
    exact ⟨native, type⟩
  · rintro ⟨native, type⟩
    exact ⟨_, Outcome.bind_eq_ok.2 ⟨native, type, rfl⟩⟩

/-- A schema is created if it makes sense and its columns have native types. -/
theorem exists_createTable_iff {d : Dialect} {s : Schema} :
    (∃ statements, d.createTable s = .ok statements) ↔ s.validateStructure = .ok () ∧
      ∀ c ∈ s.columns, c.type ≠ .unknown ∧ (d = .mysql → c.type = .enum → c.values ≠ []) := by
  have definitions : (∃ definitions, s.columns.mapM (d.columnDefinition s.table) = .ok definitions) ↔
      ∀ c ∈ s.columns, c.type ≠ .unknown ∧ (d = .mysql → c.type = .enum → c.values ≠ []) :=
    Outcome.exists_mapM_eq_ok_iff.trans
      (forall₂_congr fun _ _ => exists_columnDefinition_iff.trans exists_nativeType_iff)
  rw [← definitions]
  constructor
  · rintro ⟨statements, created⟩
    obtain ⟨valid, made, defined, -⟩ := createTable_eq_ok.1 created
    exact ⟨valid, made, defined⟩
  · rintro ⟨valid, made, defined⟩
    exact ⟨_, createTable_eq_ok.2 ⟨valid, made, defined, rfl⟩⟩

/-- The definitions of a table read back as its columns. -/
theorem forall₂_defines {d : Dialect} {table : String} {columns : List Column}
    {definitions : List String} (defined : columns.mapM (d.columnDefinition table) = .ok definitions) :
    List.Forall₂ (d.Defines table) columns definitions :=
  (Outcome.forall₂_of_mapM defined).imp fun _ _ => readColumn?_columnDefinition

end Dialect

/-! ### Primary keys -/

namespace Schema

theorem primaryKeyField_eq_ok {s : Schema} {key : String} :
    s.primaryKeyField = .ok key ↔ flaggedKey? s.columns = some key := by
  rw [primaryKeyField]
  split <;> simp [*]

/-- A schema that makes sense has a primary key. -/
theorem primaryKeyField_of_valid {s : Schema} (valid : s.validateStructure = .ok ()) :
    ∃ key, s.primaryKeyField = .ok key := by
  rw [validateStructure] at valid
  split at valid
  · exact absurd valid (by simp [throw, throwThe, MonadExceptOf.throw, bind, Except.bind])
  · obtain ⟨key, found, -⟩ := Outcome.bind_eq_ok.1 valid
    exact ⟨key, found⟩

end Schema

namespace Dialect

/-- The columns that definitions make primary keys. -/
def keys (d : Dialect) (definitions : List String) : List String :=
  ((definitions.filterMap fun definition => readColumn? d definition.toList).filter
    ReadColumn.primaryKey).map ReadColumn.field

/-- Definitions make those columns primary keys that are flagged. -/
theorem keys_eq {d : Dialect} {table : String} {columns : List Column} {definitions : List String}
    (defined : List.Forall₂ (d.Defines table) columns definitions) :
    d.keys definitions = (columns.filter Column.primaryKey).map Column.field := by
  rw [keys]
  induction defined with
  | nil => rfl
  | @cons c definition _ _ defines _ ih =>
      obtain ⟨native, -, read⟩ := defines
      rw [List.filterMap_cons, read]
      have flag : (c.said d table native).primaryKey = c.primaryKey := rfl
      cases flagged : c.primaryKey with
      | true =>
          rw [flagged] at flag
          rw [List.filter_cons_of_pos flag, List.filter_cons_of_pos flagged, List.map_cons, ih]
          rfl
      | false =>
          rw [flagged] at flag
          rw [List.filter_cons_of_neg (by simp [flag]), List.filter_cons_of_neg (by simp [flagged]), ih]

/-- **What a table is created as.**  There is one definition for each column, in order, with the types of
enum columns before and the foreign keys of the table behind.  The primary keys are the flagged columns:
the first is the key of the schema, and it is the only one exactly if no other column is flagged. -/
theorem createTable_keys {d : Dialect} {s : Schema} {statements : List String}
    (created : d.createTable s = .ok statements) :
    ∃ types definitions links key,
      statements = types ++ d.tableStatement s.table definitions :: links ∧
      (∀ statement ∈ types, d = .postgres ∧ ∃ c ∈ s.columns, c.type = .enum ∧
        readEnumType? statement = some (enumTypeName s.table c, c.values)) ∧
      List.Forall₂ (d.Defines s.table) s.columns definitions ∧
      List.Forall₂ (d.Links s.table) (s.relations.filter fun r => r.ownTable = s.table) links ∧
      s.primaryKeyField = .ok key ∧ (d.keys definitions).head? = some key ∧
      (d.keys definitions = [key] ↔ (s.columns.filter Column.primaryKey).length = 1) := by
  obtain ⟨valid, definitions, defined, rfl⟩ := createTable_eq_ok.1 created
  have reads := forall₂_defines defined
  obtain ⟨key, flagged⟩ := s.primaryKeyField_of_valid valid
  have first : (d.keys definitions).head? = some key := by
    rw [keys_eq reads, List.head?_map, List.head?_filter]
    exact Schema.primaryKeyField_eq_ok.1 flagged
  refine ⟨_, definitions, _, key, rfl, ?types, reads, ?links, flagged, first, ?alone⟩
  case types =>
    intro statement member
    obtain ⟨c, inside, made⟩ := List.mem_filterMap.1 member
    obtain ⟨dialect, kind, -, read⟩ := enumType_eq_some made
    exact ⟨dialect, c, inside, kind, read⟩
  case links =>
    rw [List.forall₂_map_right_iff]
    exact List.forall₂_same.2 fun r _ => links_foreignKey d s.table r
  case alone =>
    rw [← List.length_map (f := Column.field), ← keys_eq reads, List.length_eq_one_iff]
    constructor
    · exact fun alone => ⟨key, alone⟩
    · rintro ⟨only, alone⟩
      rw [alone] at first
      rw [alone, Option.some.inj first]

end Dialect

/-- Tenants with a house and a mood. -/
def tenants : Schema :=
  .ofColumns "tenants" [.serverKey "id", moodColumn ["so, so", "it's fine"], .plain "house_id" .number]
    [⟨"houses", "id", "tenants", "house_id"⟩, ⟨"tenants", "id", "letters", "reader_id"⟩]

/-- One column is flagged, so one is the primary key, and one of the edges is a foreign key. -/
theorem createTable_keys_tenants : ∃ statements types definitions link,
    Dialect.mssql.createTable tenants = .ok statements ∧
      statements = types ++ Dialect.mssql.tableStatement "tenants" definitions :: [link] ∧
      types = [] ∧ Dialect.mssql.keys definitions = ["id"] ∧
      Dialect.mssql.Links "tenants" ⟨"houses", "id", "tenants", "house_id"⟩ link := by
  obtain ⟨statements, created⟩ : ∃ statements, Dialect.mssql.createTable tenants = .ok statements :=
    Dialect.exists_createTable_iff.2 ⟨by decide +kernel, by decide +kernel⟩
  obtain ⟨types, definitions, links, key, whole, before, -, behind, flagged, -, alone⟩ :=
    Dialect.createTable_keys created
  have id : key = "id" := (Except.ok.inj flagged).symm
  have owned : (tenants.relations.filter fun r => r.ownTable = tenants.table) =
      [⟨"houses", "id", "tenants", "house_id"⟩] := by decide +kernel
  rw [owned] at behind
  obtain ⟨link, rest, linked, none, rfl⟩ := List.forall₂_cons_left_iff.1 behind
  rw [List.forall₂_nil_left_iff.1 none] at whole
  have nothing : types = [] := List.eq_nil_iff_forall_not_mem.2 fun statement member =>
    absurd (before statement member).1 (by decide)
  exact ⟨statements, types, definitions, link, created, whole, nothing, id ▸ alone.2 rfl, linked⟩

/-- Pairs, both of whose columns are flagged. -/
def pairs : Schema :=
  .ofColumns "pairs" [.serverKey "id", { Column.plain "code" .string with primaryKey := true }] []

/-- Every flagged column becomes a primary key, also beside the key of the schema. -/
theorem createTable_pairs : pairs.primaryKeyField = .ok "id" ∧
    ∃ definitions, Dialect.postgres.createTable pairs =
        .ok [Dialect.postgres.tableStatement "pairs" definitions] ∧
      definitions = ["\"id\" INTEGER GENERATED BY DEFAULT AS IDENTITY PRIMARY KEY",
        "\"code\" VARCHAR(255) PRIMARY KEY"] ∧
      Dialect.postgres.keys definitions = ["id", "code"] := by
  exact ⟨rfl, _, Outcome.toOption_eq_some.1 (by decide +kernel), rfl, by decide +kernel⟩

/-! ### Types that are used -/

/-- The type that a definition names, if it names one, is created once, with the values of the column. -/
def TypeCreated (types : List String) (c : Column) (definition : String) : Prop :=
  ∀ read ident, readColumn? .postgres definition.toList = some read → read.type = .named ident →
    (types.filterMap readEnumType?).filter (fun created => created.1 = ident) = [(ident, c.values)]

theorem Dialect.enumTypeName_inj {table : String} {c c' : Column} :
    Dialect.enumTypeName table c = Dialect.enumTypeName table c' ↔ c.field = c'.field := by
  simp [Dialect.enumTypeName, toString, ← String.toList_inj, String.toList_append]

/-- Mapped items are distinct exactly if each item is found alone. -/
theorem nodup_map_iff_filter {α β : Type} [DecidableEq β] {f : α → β} {items : List α} :
    (items.map f).Nodup ↔ ∀ a ∈ items, items.filter (fun b => f b = f a) = [a] := by
  have count (a : α) : (items.map f).count (f a) = (items.filter fun b => f b = f a).length := by
    rw [List.count_eq_countP, List.countP_map, List.countP_eq_length_filter]
    rfl
  rw [List.nodup_iff_count_eq_one, List.forall_mem_map]
  refine forall₂_congr fun a member => ?_
  rw [count, List.length_eq_one_iff]
  constructor
  · rintro ⟨only, alone⟩
    have found : a ∈ items.filter fun b => f b = f a := by simpa using member
    rw [alone] at found ⊢
    rw [List.mem_singleton.1 found]
  · exact fun alone => ⟨a, alone⟩

/-- A relation between the items of two lists that is about the first ones only. -/
theorem forall₂_iff_forall {α β : Type} {r q : α → β → Prop} {p : α → Prop} {xs : List α}
    {ys : List β} (related : List.Forall₂ r xs ys) (about : ∀ a b, r a b → (q a b ↔ p a)) :
    List.Forall₂ q xs ys ↔ ∀ a ∈ xs, p a := by
  induction related with
  | nil => simp
  | cons here _ ih => rw [List.forall₂_cons, List.forall_mem_cons, about _ _ here, ih]

theorem Dialect.Defines.typeCreated_iff {table definition : String} {c : Column}
    (defined : Dialect.postgres.Defines table c definition) (columns : List Column) :
    TypeCreated (columns.filterMap (Dialect.postgres.enumType table)) c definition ↔
      (c.type = .enum → ((Dialect.listing columns).filter fun c' => c'.field = c.field).map
        (fun c' => (Dialect.enumTypeName table c', c'.values)) =
          [(Dialect.enumTypeName table c, c.values)]) := by
  obtain ⟨native, -, read⟩ := defined
  have named (ident : String) : (c.said .postgres table native).type = .named ident ↔
      c.type = .enum ∧ ident = Dialect.enumTypeName table c := by
    by_cases kind : c.type = .enum <;>
      simp [Column.said, Dialect.namesType, kind, eq_comm (a := ident)]
  have found : ((columns.filterMap (Dialect.postgres.enumType table)).filterMap readEnumType?).filter
      (fun created => created.1 = Dialect.enumTypeName table c) =
      ((Dialect.listing columns).filter fun c' => c'.field = c.field).map fun c' =>
        (Dialect.enumTypeName table c', c'.values) := by
    rw [Dialect.createdTypes, List.filter_map]
    refine congrArg (List.map _) (List.filter_congr fun c' _ => ?_)
    simp [Dialect.enumTypeName_inj]
  rw [← found]
  constructor
  · intro created kind
    exact created _ _ read ((named _).2 ⟨kind, rfl⟩)
  · intro created r ident again type
    obtain rfl := Option.some.inj (read.symm.trans again)
    obtain ⟨kind, rfl⟩ := (named ident).1 type
    exact created kind

/-- All the types that are used are created exactly if all enum columns have values, and their names
differ. -/
theorem typesCreated_iff {table : String} {columns : List Column} {definitions : List String}
    (defined : List.Forall₂ (Dialect.postgres.Defines table) columns definitions) :
    List.Forall₂ (TypeCreated (columns.filterMap (Dialect.postgres.enumType table))) columns
        definitions ↔
      (∀ c ∈ columns, c.type = .enum → c.values ≠ []) ∧
        ((columns.filter fun c => c.type = .enum).map Column.field).Nodup := by
  rw [forall₂_iff_forall defined fun c definition here => here.typeCreated_iff columns]
  -- once all enum columns have values, the columns that types are created for are just these
  have all (filled : ∀ c ∈ columns, c.type = .enum → c.values ≠ []) :
      Dialect.listing columns = columns.filter fun c => c.type = .enum := by
    refine List.filter_congr fun c member => ?_
    simpa using filled c member
  constructor
  · intro created
    have filled : ∀ c ∈ columns, c.type = .enum → c.values ≠ [] := by
      intro c member kind
      obtain ⟨c', only, same⟩ := List.map_eq_singleton_iff.1 (created c member kind)
      have listed := List.mem_of_mem_filter (only ▸ List.mem_singleton_self c')
      have values : c'.values ≠ [] := (of_decide_eq_true (List.mem_filter.1 listed).2).2
      rwa [(Prod.mk.inj same).2] at values
    refine ⟨filled, nodup_map_iff_filter.2 fun c member => ?_⟩
    obtain ⟨inside, kind⟩ := List.mem_filter.1 member
    obtain ⟨c', only, -⟩ := List.map_eq_singleton_iff.1 (created c inside (of_decide_eq_true kind))
    rw [all filled] at only
    have found : c ∈ (columns.filter fun c => c.type = .enum).filter fun c' => c'.field = c.field :=
      List.mem_filter.2 ⟨member, by simp⟩
    rw [only] at found ⊢
    rw [List.mem_singleton.1 found]
  · rintro ⟨filled, distinct⟩ c member kind
    have alone := nodup_map_iff_filter.1 distinct c (List.mem_filter.2 ⟨member, by simp [kind]⟩)
    rw [all filled, alone]
    rfl

/-- **When the types that a table uses are created.**  Every schema that makes sense and whose columns have
known types is created; a dialect that writes the values into the type refuses a column without any.  The
other one does not: the types that the definitions name are created before the table, each of them once
and with the values of its column, exactly if all enum columns have values, and their names differ. -/
theorem Dialect.createTable_types (s : Schema) :
    ((∃ statements, Dialect.postgres.createTable s = .ok statements) ↔
      s.validateStructure = .ok () ∧ ∀ c ∈ s.columns, c.type ≠ .unknown) ∧
    ((∃ statements, Dialect.mysql.createTable s = .ok statements) ↔
      s.validateStructure = .ok () ∧
        ∀ c ∈ s.columns, c.type ≠ .unknown ∧ (c.type = .enum → c.values ≠ [])) ∧
    ∀ statements, Dialect.postgres.createTable s = .ok statements →
      ∃ types definitions links,
        statements = types ++ Dialect.postgres.tableStatement s.table definitions :: links ∧
        List.Forall₂ (Dialect.postgres.Defines s.table) s.columns definitions ∧
        (List.Forall₂ (TypeCreated types) s.columns definitions ↔
          (∀ c ∈ s.columns, c.type = .enum → c.values ≠ []) ∧
            ((s.columns.filter fun c => c.type = .enum).map Column.field).Nodup) := by
  refine ⟨?_, ?_, fun statements created => ?_⟩
  · simp [Dialect.exists_createTable_iff]
  · simp [Dialect.exists_createTable_iff]
  · obtain ⟨-, definitions, defined, rfl⟩ := Dialect.createTable_eq_ok.1 created
    have reads := Dialect.forall₂_defines defined
    exact ⟨_, definitions, _, rfl, reads, typesCreated_iff reads⟩

/-- The mood of tenants has one type, with a comma and a quote in the values. -/
theorem createTable_types_tenants : ∃ statements types definitions links,
    Dialect.postgres.createTable tenants = .ok statements ∧
      statements = types ++ Dialect.postgres.tableStatement "tenants" definitions :: links ∧
      List.Forall₂ (TypeCreated types) tenants.columns definitions := by
  obtain ⟨created, -, used⟩ := Dialect.createTable_types tenants
  obtain ⟨statements, made⟩ := created.2 ⟨by decide +kernel, by decide +kernel⟩
  obtain ⟨types, definitions, links, whole, -, all⟩ := used statements made
  exact ⟨statements, types, definitions, links, made, whole,
    all.2 ⟨by decide +kernel, by decide +kernel⟩⟩

/-- Notes whose status has no values. -/
def statusNotes : Schema := .ofColumns "notes" [.serverKey "id", .plain "status" .enum] []

/-- The table uses a type that is not created. -/
theorem createTable_notes :
    ∃ definition, Dialect.postgres.createTable statusNotes = .ok [Dialect.postgres.tableStatement "notes"
        ["\"id\" INTEGER GENERATED BY DEFAULT AS IDENTITY PRIMARY KEY", definition]] ∧
      definition = "\"status\" \"notes_status_enum\"" ∧
      (readColumn? .postgres definition.toList).map ReadColumn.type = some (.named "notes_status_enum") ∧
      Dialect.mysql.createTable statusNotes =
        .error (.validation "Enum column status declares no values") := by
  exact ⟨_, Outcome.toOption_eq_some.1 (by decide +kernel), rfl, by decide +kernel,
    Outcome.failsWith_iff.1 (by decide +kernel)⟩

end DataAccess
