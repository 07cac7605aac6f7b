import DataAccess.Sql.NativeType
import DataAccess.Schema.Basic
import DataAccess.Json.Printer
/-
**The catalog.**  A relational backend describes its own tables.  One query lists the columns of a
table, one the foreign keys it takes part in on either side, and one the tables; their rows have the
same keys in every dialect.

Main definitions:

* `Dialect.columnsQuery`, `Dialect.relationsQuery`, `Dialect.tablesQuery` — the three queries;
* `inlineEnum?` — the values of a type written as `enum('a','b')`;
* `Dialect.columnOfRow` — a column out of a row;
* `relationOfRow?` — a foreign key out of a row.

Main results:

* `Dialect.columnOfRow_unnamed` — a row without a field name is refused.
-/

set_option autoImplicit false

namespace DataAccess

namespace Dialect

/-- Lists the columns of the table that is bound as the only value. -/
def columnsQuery : Dialect → String
  | .postgres =>
    Text.join "\n"
      ["SELECT c.column_name::text AS \"Field\",",
       "       c.data_type::text AS \"Type\",",
       "       c.is_nullable::text AS \"Null\",",
       "       c.column_default::text AS \"Default\",",
       "       CASE",
       "           WHEN EXISTS (SELECT 1 FROM information_schema.table_constraints tc",
       "                        JOIN information_schema.key_column_usage k",
       "                          ON k.constraint_name = tc.constraint_name AND k.table_name = tc.table_name",
       "                        WHERE tc.table_name = c.table_name AND k.column_name = c.column_name",
       "                          AND tc.constraint_type = 'PRIMARY KEY') THEN 'PRI'",
       "           WHEN EXISTS (SELECT 1 FROM information_schema.table_constraints tc",
       "                        JOIN information_schema.key_column_usage k",
       "                          ON k.constraint_name = tc.constraint_name AND k.table_name = tc.table_name",
       "                        WHERE tc.table_name = c.table_name AND k.column_name = c.column_name",
       "                          AND tc.constraint_type = 'UNIQUE') THEN 'UNI'",
       "           WHEN EXISTS (SELECT 1 FROM information_schema.table_constraints tc",
       "                        JOIN information_schema.key_column_usage k",
       "                          ON k.constraint_name = tc.constraint_name AND k.table_name = tc.table_name",
       "                        WHERE tc.table_name = c.table_name AND k.column_name = c.column_name",
       "                          AND tc.constraint_type = 'FOREIGN KEY') THEN 'MUL'",
       "           ELSE ''",
       "       END AS \"Key\",",
       "       CASE WHEN c.is_identity = 'YES' OR c.column_default LIKE 'nextval(%'",
       "            THEN 'auto_increment' ELSE '' END AS \"Extra\",",
       "       c.character_maximum_length::int AS \"Length\",",
       "       (SELECT string_agg(e.enumlabel, ',' ORDER BY e.enumsortorder)",
       "          FROM pg_type t JOIN pg_enum e ON e.enumtypid = t.oid",
       "         WHERE t.typname = c.udt_name) AS \"Enum\"",
       "  FROM information_schema.columns c",
       " WHERE c.table_name = $1",
       " ORDER BY c.ordinal_position"]
  | .mysql =>
    Text.join " "
      ["SELECT COLUMN_NAME AS `Field`, COLUMN_TYPE AS `Type`, IS_NULLABLE AS `Null`,",
       "COLUMN_DEFAULT AS `Default`, COLUMN_KEY AS `Key`, EXTRA AS `Extra`,",
       "CHARACTER_MAXIMUM_LENGTH AS `Length`, NULL AS `Enum`",
       "FROM information_schema.COLUMNS",
       "WHERE TABLE_SCHEMA = DATABASE() AND TABLE_NAME = ?",
       "ORDER BY ORDINAL_POSITION"]
  | .mssql =>
    Text.join " "
      ["SELECT c.COLUMN_NAME AS [Field], c.DATA_TYPE AS [Type], c.IS_NULLABLE AS [Null],",
       "c.COLUMN_DEFAULT AS [Default],",
       "CASE",
       "WHEN EXISTS (SELECT 1 FROM INFORMATION_SCHEMA.TABLE_CONSTRAINTS tc",
       "JOIN INFORMATION_SCHEMA.KEY_COLUMN_USAGE k ON k.CONSTRAINT_NAME = tc.CONSTRAINT_NAME",
       "WHERE tc.TABLE_NAME = c.TABLE_NAME AND k.COLUMN_NAME = c.COLUMN_NAME",
       "AND tc.CONSTRAINT_TYPE = 'PRIMARY KEY') THEN 'PRI'",
       "WHEN EXISTS (SELECT 1 FROM INFORMATION_SCHEMA.TABLE_CONSTRAINTS tc",
       "JOIN INFORMATION_SCHEMA.KEY_COLUMN_USAGE k ON k.CONSTRAINT_NAME = tc.CONSTRAINT_NAME",
       "WHERE tc.TABLE_NAME = c.TABLE_NAME AND k.COLUMN_NAME = c.COLUMN_NAME",
       "AND tc.CONSTRAINT_TYPE = 'UNIQUE') THEN 'UNI'",
       "WHEN EXISTS (SELECT 1 FROM INFORMATION_SCHEMA.TABLE_CONSTRAINTS tc",
       "JOIN INFORMATION_SCHEMA.KEY_COLUMN_USAGE k ON k.CONSTRAINT_NAME = tc.CONSTRAINT_NAME",
       "WHERE tc.TABLE_NAME = c.TABLE_NAME AND k.COLUMN_NAME = c.COLUMN_NAME",
       "AND tc.CONSTRAINT_TYPE = 'FOREIGN KEY') THEN 'MUL'",
       "ELSE '' END AS [Key],",
       "CASE WHEN COLUMNPROPERTY(OBJECT_ID(c.TABLE_NAME), c.COLUMN_NAME, 'IsIdentity') = 1",
       "THEN 'auto_increment' ELSE '' END AS [Extra],",
       "c.CHARACTER_MAXIMUM_LENGTH AS [Length], NULL AS [Enum]",
       "FROM INFORMATION_SCHEMA.COLUMNS c WHERE c.TABLE_NAME = @p1",
       "ORDER BY c.ORDINAL_POSITION"]

/-- Lists the foreign keys of the table that is bound twice, once for each side. -/
def relationsQuery : Dialect → String
  | .postgres =>
    Text.join "\n"
      ["SELECT ccu.table_name::text AS \"table\",",
       "       ccu.column_name::text AS \"column\",",
       "       kcu.table_name::text AS \"org_table\",",
       "       kcu.column_name::text AS \"org_column\"",
       "  FROM information_schema.table_constraints tc",
       "  JOIN information_schema.key_column_usage kcu",
       "    ON tc.constraint_name = kcu.constraint_name",
       "  JOIN information_schema.constraint_column_usage ccu",
       "    ON ccu.constraint_name = tc.constraint_name",
       " WHERE tc.constraint_type = 'FOREIGN KEY'",
       "   AND (kcu.table_name = $1 OR ccu.table_name = $2)"]
  | .mysql =>
    Text.join " "
      ["SELECT REFERENCED_TABLE_NAME AS `table`, REFERENCED_COLUMN_NAME AS `column`,",
       "TABLE_NAME AS `org_table`, COLUMN_NAME AS `org_column`",
       "FROM information_schema.KEY_COLUMN_USAGE",
       "WHERE TABLE_SCHEMA = DATABASE() AND REFERENCED_TABLE_NAME IS NOT NULL",
       "AND (TABLE_NAME = ? OR REFERENCED_TABLE_NAME = ?)"]
  | .mssql =>
    Text.join " "
      ["SELECT pk.TABLE_NAME AS [table], pk.COLUMN_NAME AS [column],",
       "fk.TABLE_NAME AS [org_table], fk.COLUMN_NAME AS [org_column]",
       "FROM INFORMATION_SCHEMA.REFERENTIAL_CONSTRAINTS rc",
       "JOIN INFORMATION_SCHEMA.KEY_COLUMN_USAGE fk ON fk.CONSTRAINT_NAME = rc.CONSTRAINT_NAME",
       "JOIN INFORMATION_SCHEMA.KEY_COLUMN_USAGE pk ON pk.CONSTRAINT_NAME = rc.UNIQUE_CONSTRAINT_NAME",
       "AND pk.ORDINAL_POSITION = fk.ORDINAL_POSITION",
       "WHERE fk.TABLE_NAME = @p1 OR pk.TABLE_NAME = @p2"]

/-- Lists the tables. -/
def tablesQuery : Dialect → String
  | .postgres =>
    Text.join " "
      ["SELECT table_name::text AS name FROM information_schema.tables",
       "WHERE table_schema = 'public' AND table_type = 'BASE TABLE' ORDER BY table_name"]
  | .mysql =>
    Text.join " "
      ["SELECT TABLE_NAME AS name FROM information_schema.TABLES",
       "WHERE TABLE_SCHEMA = DATABASE() AND TABLE_TYPE = 'BASE TABLE' ORDER BY TABLE_NAME"]
  | .mssql =>
    Text.join " "
      ["SELECT TABLE_NAME AS name FROM INFORMATION_SCHEMA.TABLES",
       "WHERE TABLE_TYPE = 'BASE TABLE' ORDER BY TABLE_NAME"]

end Dialect

/-! ### Rows of the catalog -/

/-- A text without the quotes at its ends. -/
def trimQuotes (s : List Char) : List Char :=
  ((s.dropWhile (· == '\'')).reverse.dropWhile (· == '\'')).reverse

/-- The values of a type written as `enum('a','b')`. -/
def inlineEnum? (native : String) : Option (List String) :=
  if "enum(".toList.isPrefixOf (lowercase native).toList && native.toList.getLast? == some ')' then
    let inner := (native.toList.drop 5).dropLast
    some ((Text.split ',' inner).map fun value =>
      String.ofList (Text.undouble '\'' (trimQuotes (Text.trim value))))
  else none

/-- The text under a key of a row; empty when there is none. -/
def rowText (row : Record) (key : String) : String := ((row.get? key).bind Json.asString?).getD ""

/-- The default expression of a row. -/
def rowDefault (row : Record) : Option String :=
  match row.get? "Default" with
  | none | some .null => none
  | some (.string s) => some s
  | some v => some v.text

namespace Dialect

/-- A column out of a row of the catalog. -/
def columnOfRow (d : Dialect) (row : Record) : Outcome Column :=
  let field := rowText row "Field"
  if field = "" then .error (.backend "Column catalog row without a field name")
  else
    let native := rowText row "Type"
    let key := rowText row "Key"
    let nullable := lowercase (rowText row "Null") == "yes"
    let listed := rowText row "Enum"
    let values := if listed = "" then inlineEnum? native else some (Text.splitOn ',' listed)
    .ok
      { field
        type := if values.isSome then .enum else d.columnType native
        nullable
        required := !nullable
        primaryKey := key == "PRI"
        uniqueKey := key == "PRI" || key == "UNI"
        foreignKey := key == "MUL"
        autoIncrement :=
          Text.occursIn "auto_increment".toList (lowercase (rowText row "Extra")).toList
        default := rowDefault row
        enumValues := values
        maxLength := ((row.get? "Length").bind Json.asUnsigned?).map (· % 2 ^ 32) }

theorem columnOfRow_unnamed {row : Record} (h : rowText row "Field" = "") (d : Dialect) :
    d.columnOfRow row = .error (.backend "Column catalog row without a field name") := by
  simp [columnOfRow, h]

end Dialect

/-- A foreign key out of a row of the catalog; a row with a missing part is no foreign key. -/
def relationOfRow? (row : Record) : Option Relation := do
  some
    { table := ← (row.get? "table") >>= Json.asString?
      column := ← (row.get? "column") >>= Json.asString?
      ownTable := ← (row.get? "org_table") >>= Json.asString?
      ownColumn := ← (row.get? "org_column") >>= Json.asString? }

end DataAccess
