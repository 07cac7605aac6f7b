import DataAccess.Proofs.Engine.Recorded
import DataAccess.Proofs.Json.Keyed
import DataAccess.Proofs.Sql.Placeholders
/-
**Reading a written row back.**  One dialect returns no rows from a write, so a second statement reads
the row by its key.  After an update it is the key of the update.  After an insert it is the key that was
generated last, where the server generates keys, and otherwise the key that was inserted.  An insert that
brings no key to a table without generated keys is also followed by a read of the key generated last,
which belongs to another insert.

Main definitions:

* `CompiledQuery.lastGenerated`, `CompiledQuery.keyed` — the two reads of a row by its key;
* `CompiledQuery.Inserts`, `CompiledQuery.Updates` — what a write binds for its columns and its key;
* `CompiledQuery.ReadsInserted` — a read is after the row of an insert;
* `ReadAfter` — a write, and the read of its row unless the write fails.

Main results:

* `Statement.compile_selectByKey` — the texts of the two reads;
* `Statement.get?_boundCells` — the value that an insert binds for a column;
* `Statement.inserts_insert`, `Statement.updates_update` — what the writes bind;
* `Schema.readsInserted_iff` — when the read after an insert is after its row;
* `Recorder.reads_back` — **the row that is read back is the written one**, but for an insert without a
  key into a table whose keys are not generated.
-/

set_option autoImplicit false

namespace DataAccess

open DataAccess.Action

/-! ### Reads by key -/

namespace CompiledQuery

/-- The text that reads the row whose key equals a target. -/
def keyedText (table key target : String) : String :=
  "SELECT * FROM " ++ Dialect.mysql.quote table ++ " WHERE " ++ Dialect.mysql.quote table ++ "." ++
    Dialect.mysql.quote key ++ " = " ++ target

/-- The read of the row with the key that was generated last. -/
def lastGenerated (table key : String) : CompiledQuery :=
  ⟨keyedText table key "LAST_INSERT_ID()", []⟩

/-- The read of the row with a certain key. -/
def keyed (table key : String) (v : Json) : CompiledQuery := ⟨keyedText table key "?", [v]⟩

/-- The read of the row with the key that is given, or else with the one that was generated last. -/
def rowRead (table key : String) : Option Json → CompiledQuery
  | some v => keyed table key v
  | none => lastGenerated table key

theorem keyed_ne_lastGenerated (table key : String) (v : Json) :
    keyed table key v ≠ lastGenerated table key := by
  intro same
  exact absurd (congrArg CompiledQuery.params same) (List.cons_ne_nil v [])

theorem rowRead_eq_lastGenerated_iff {table key : String} {v : Option Json} :
    rowRead table key v = lastGenerated table key ↔ v = none := by
  cases v with
  | none => exact iff_of_true rfl rfl
  | some v => exact iff_of_false (keyed_ne_lastGenerated table key v) (by simp)

end CompiledQuery

namespace Statement

variable {s : Schema} {key : String}

theorem renderFrom_keyed (table key : String) (target : Token) (n : Nat) :
    renderFrom .mysql n ([.text "SELECT * FROM ", .name table, .text " WHERE "] ++
      qualified table key ++ [.text " = ", target]) =
      CompiledQuery.keyedText table key (target.render .mysql (n + 1)) := by
  have last : renderFrom .mysql n [target] = target.render .mysql (n + 1) := String.append_empty
  simp only [qualified, List.cons_append, List.nil_append, renderFrom_text, renderFrom_name, last,
    ← String.append_assoc]
  rfl

/-- A read by key has one of two texts, and binds the key if it has one. -/
theorem compile_selectByKey (known : s.primaryKeyField = .ok key) (id : Option Json) :
    ∃ q, selectByKey .mysql s id = .ok q ∧ q.compile .mysql =
      .rowRead s.table key (id.map fun v => coerceWrite (keyType s key) v .integer) := by
  cases id with
  | some id =>
      refine ⟨_, Outcome.bind_eq_ok.2 ⟨key, known, rfl⟩, ?_⟩
      rw [compile, render, renderFrom_keyed]
      rfl
  | none =>
      refine ⟨_, Outcome.bind_eq_ok.2 ⟨key, known, rfl⟩, ?_⟩
      rw [compile, render, renderFrom_keyed]
      rfl

end Statement

/-! ### What an insert binds -/

/-- An insert lists columns, and in the same order the values that are bound for them. -/
structure CompiledQuery.Inserts (q : CompiledQuery) (d : Dialect) (table : String)
    (bound : Keyed Json) : Prop where
  opens : "INSERT INTO ".toList <+: q.sql.toList
  reads : q.Reads d (table :: Keyed.keys bound)
  values : q.params = bound.map Prod.snd

namespace Statement

/-- What an insert binds for a column, if the column is not left to the server and has a value. -/
def boundCell (d : Dialect) (data : Record) (c : Column) : Option (String × Json) :=
  if c.isServerGenerated then none
  else (data.get? c.field).map fun v => (c.field, coerceWrite c.type v d.booleans)

/-- The columns of an insert, with the values bound for them. -/
def boundCells (d : Dialect) (s : Schema) (data : Record) : Keyed Json :=
  s.columns.filterMap (boundCell d data)

variable {d : Dialect} {s : Schema} {data : Record} {key : String}

theorem boundCell_eq_some {c : Column} {entry : String × Json}
    (bound : boundCell d data c = some entry) :
    ∃ v, data.get? c.field = some v ∧ entry = (c.field, coerceWrite c.type v d.booleans) := by
  rw [boundCell] at bound
  split at bound
  · exact absurd bound (by simp)
  · obtain ⟨v, held, rfl⟩ := Option.map_eq_some_iff.1 bound
    exact ⟨v, held, rfl⟩

theorem map_inserted (d : Dialect) (s : Schema) (data : Record) :
    ((inserted s data).map fun cell =>
      (cell.1.field, coerceWrite cell.1.type cell.2 d.booleans)) = boundCells d s data := by
  rw [inserted, boundCells, List.map_filterMap]
  refine List.filterMap_congr fun c _ => ?_
  rw [boundCell]
  cases c.isServerGenerated with
  | true => rfl
  | false => cases data.get? c.field <;> rfl

theorem inserts_insert (d : Dialect) (style : Returning) (s : Schema) (data : Record) :
    ((insert style s data).compile d).Inserts d s.table (boundCells d s data) where
  opens := by
    obtain ⟨rest, begins⟩ := exists_insert_eq style s data
    rw [begins, toList_sql_text]
    exact List.prefix_append _ _
  reads := by
    obtain ⟨spaced, named, -⟩ := insert_spec style s data d
    have reads := spaced.reads d
    rw [named] at reads
    rw [← map_inserted, Keyed.keys, List.map_map]
    exact reads
  values := by
    obtain ⟨-, -, values⟩ := insert_spec style s data d
    rw [← map_inserted, List.map_map]
    exact values

/-- With distinct columns an insert binds one value for each. -/
theorem nodup_boundCells (distinct : s.columnNames.Nodup) :
    (Keyed.keys (boundCells d s data)).Nodup := by
  refine distinct.sublist ?_
  rw [boundCells, Schema.columnNames]
  induction s.columns with
  | nil => exact List.Sublist.slnil
  | cons first rest ih =>
      rw [List.filterMap_cons]
      cases bound : boundCell d data first with
      | none => exact ih.cons _
      | some entry =>
          obtain ⟨v, -, rfl⟩ := boundCell_eq_some bound
          exact ih.cons_cons _

/-- An insert binds the value of the record for a column that is not generated. -/
theorem get?_boundCells {c : Column} (found : s.column? key = some c)
    (given : c.isServerGenerated = false) :
    Keyed.get? (boundCells d s data) key =
      (data.get? key).map fun v => coerceWrite c.type v d.booleans := by
  cases held : data.get? key with
  | none =>
      refine Keyed.get?_eq_none_iff.2 fun listed => ?_
      obtain ⟨entry, member, rfl⟩ := List.mem_map.1 listed
      obtain ⟨c', -, bound⟩ := List.mem_filterMap.1 member
      obtain ⟨v, present, rfl⟩ := boundCell_eq_some bound
      exact absurd (held.symm.trans present) (by simp)
  | some v =>
      -- the column is the first with its name, so nothing is bound under this name before
      obtain ⟨named, before, after, columns, earlier⟩ := List.find?_eq_some_iff_append.1 found
      obtain rfl : c.field = key := by simpa using named
      have none : Keyed.get? (before.filterMap (boundCell d data)) c.field = none := by
        refine Keyed.get?_eq_none_iff.2 fun listed => ?_
        obtain ⟨entry, member, name⟩ := List.mem_map.1 listed
        obtain ⟨c', present, bound⟩ := List.mem_filterMap.1 member
        obtain ⟨v', -, rfl⟩ := boundCell_eq_some bound
        exact absurd name (by simpa using earlier c' present)
      have here : boundCell d data c = some (c.field, coerceWrite c.type v d.booleans) := by
        rw [boundCell, given, held]
        rfl
      rw [boundCells, columns, List.filterMap_append, Keyed.get?_append, none,
        List.filterMap_cons_some here, Keyed.get?_cons, if_pos rfl]
      rfl

end Statement

/-! ### The read after an insert -/

/-- The server generates the values of a column. -/
def Schema.generates (s : Schema) (key : String) : Bool :=
  ((s.column? key).map Column.isServerGenerated).getD false

/-- A read is after the row of an insert: the row of the last generated key if keys are generated, and
else the row with the key that was bound. -/
def CompiledQuery.ReadsInserted (q : CompiledQuery) (s : Schema) (key : String)
    (bound : Keyed Json) : Prop :=
  if s.generates key then q = .lastGenerated s.table key
  else ∃ v, Keyed.get? bound key = some v ∧ q = .keyed s.table key v

/-- What is read after an insert: the row of the key in the record, unless keys are generated. -/
def Schema.insertedRead (s : Schema) (key : String) (data : Record) : CompiledQuery :=
  .rowRead s.table key <| (if s.generates key then none else data.get? key).map fun v =>
    coerceWrite (Statement.keyType s key) v .integer

namespace Schema

variable {s : Schema} {key : String} {data : Record}

theorem insertedRead_eq_lastGenerated_iff :
    s.insertedRead key data = .lastGenerated s.table key ↔
      s.generates key = true ∨ data.get? key = none := by
  rw [insertedRead, CompiledQuery.rowRead_eq_lastGenerated_iff, Option.map_eq_none_iff]
  cases s.generates key <;> simp

/-- The read after an insert is after its row if keys are generated, or the record has a key. -/
theorem readsInserted_iff (known : s.primaryKeyField = .ok key) :
    (s.insertedRead key data).ReadsInserted s key (Statement.boundCells .mysql s data) ↔
      s.generates key = true ∨ data.contains key = true := by
  obtain ⟨c, found⟩ := Option.isSome_iff_exists.1 (hasColumn_of_primaryKeyField known)
  have flag : s.generates key = c.isServerGenerated := by rw [generates, found]; rfl
  have type : Statement.keyType s key = c.type := by rw [Statement.keyType, found]; rfl
  rw [CompiledQuery.ReadsInserted, insertedRead, Keyed.contains, type]
  cases generated : s.generates key with
  | true => exact iff_of_true rfl (.inl rfl)
  | false =>
      rw [Statement.get?_boundCells found (flag.symm.trans generated)]
      cases data.get? key with
      | none => simp
      | some v => exact iff_of_true ⟨_, rfl, rfl⟩ (.inr rfl)

end Schema

/-! ### What an update binds -/

/-- An update sets columns, and binds its key for the comparison that its text ends with. -/
structure CompiledQuery.Updates (q : CompiledQuery) (table key : String) (set : Keyed Json)
    (v : Json) : Prop where
  opens : "UPDATE ".toList <+: q.sql.toList
  clause : ∃ front, q.sql = front ++ (" WHERE " ++ Dialect.mysql.quote key ++ " = " ++ "?")
  reads : q.Reads .mysql (table :: (Keyed.keys set ++ [key]))
  binds : q.Binds .mysql (set ++ [(key, v)])
  apart : key ∉ Keyed.keys set

namespace Statement

variable {s : Schema} {key : String}

/-- The columns that an update sets, with the values bound for them. -/
def setCells (d : Dialect) (s : Schema) (key : String) (data : Record) : Keyed Json :=
  (updated s key data).map fun cell => (cell.1.field, coerceWrite cell.1.type cell.2 d.booleans)

/-- An update that ends with the comparison with its key. -/
def keyedUpdate (s : Schema) (key : String) (id : Json) (data : Record) : Statement :=
  (.text "UPDATE " :: .name s.table :: .text " SET " :: assignmentList (updated s key data)) ++
    keyClause s key id

/-- Where the row is read back, an update ends with the comparison with its key. -/
theorem update_reselect (known : s.primaryKeyField = .ok key) (id : Json) {data : Record}
    (filled : (updated s key data).isEmpty = false) :
    update .reselect s id data = .ok (keyedUpdate s key id data) := by
  simp [update, known, filled, keyedUpdate, assignmentList, keyClause, bind, Except.bind, pure,
    Except.pure]

theorem renderFrom_keyClause (s : Schema) (key : String) (id : Json) (n : Nat) :
    renderFrom .mysql n (keyClause s key id) =
      " WHERE " ++ Dialect.mysql.quote key ++ " = " ++ "?" := by
  simp only [keyClause, renderFrom_text, renderFrom_name, renderFrom_slot, renderFrom_nil,
    String.append_empty, ← String.append_assoc]
  rfl

theorem updates_update (known : s.primaryKeyField = .ok key) (id : Json) {data : Record}
    (filled : (updated s key data).isEmpty = false) :
    ((keyedUpdate s key id data).compile .mysql).Updates s.table key (setCells .mysql s key data)
      (coerceWrite (keyType s key) id .integer) := by
  obtain ⟨key', known', reads, binds⟩ := update_spec (update_reselect known id filled) .mysql
  obtain rfl := Except.ok.inj (known.symm.trans known')
  refine ⟨?opens, ?clause, ?reads, binds, ?apart⟩
  case opens =>
      rw [keyedUpdate, List.cons_append, toList_sql_text]
      exact List.prefix_append _ _
  case clause =>
      rw [keyedUpdate, compile, render, renderFrom_append, renderFrom_keyClause]
      exact ⟨_, rfl⟩
  case reads =>
      rw [setCells, Keyed.keys, List.map_map]
      exact reads
  case apart =>
      rw [setCells, Keyed.keys, List.map_map]
      intro listed
      obtain ⟨cell, member, name⟩ := List.mem_map.1 listed
      obtain ⟨c, -, taken⟩ := List.mem_filterMap.1 member
      split at taken
      · exact absurd taken (by simp)
      · next other =>
        obtain ⟨v, -, rfl⟩ := Option.map_eq_some_iff.1 taken
        exact other name

end Statement

/-! ### Writes and their reads -/

/-- A write, and the read of its row unless the write fails. -/
inductive ReadAfter (write read : CompiledQuery) : List Exchange → Prop
  | failed (e : NativeError) : ReadAfter write read [⟨write, .error e⟩]
  | answered (output : QueryOutput) (reply : Except NativeError QueryOutput) :
      ReadAfter write read [⟨write, .ok output⟩, ⟨read, reply⟩]

theorem Writes.readAfter {d : Dialect} {q r : Statement} {log : List Exchange}
    (h : Writes d (.ok q) (some r) log) : ReadAfter (q.compile d) (r.compile d) log := by
  cases h with
  | invalid error => exact absurd error (by simp)
  | failed compiled =>
      obtain rfl := Except.ok.inj compiled
      exact .failed _
  | written compiled complete => exact absurd complete (by simp)
  | reread compiled again =>
      obtain rfl := Except.ok.inj compiled
      obtain rfl := Option.some.inj again
      exact .answered _ _

namespace Recorder

variable {ρ : Type} (g : Recorder ρ) {s : Schema} {key : String}

theorem rereads_mysql (mysql : g.dialect = .mysql) (r : Statement) :
    g.rereads (.ok r) = some r := by
  rw [rereads, mysql]
  rfl

/-- What is read after an insert is the row of the key that is generated, or of the one in the record. -/
theorem readInserted_eq (mysql : g.dialect = .mysql) (known : s.primaryKeyField = .ok key)
    (data : Record) :
    ∃ r, g.datasource.readInserted s data = .ok r ∧ r.compile .mysql = s.insertedRead key data := by
  obtain ⟨r, selected, text⟩ :=
    Statement.compile_selectByKey known (if s.generates key then none else data.get? key)
  refine ⟨r, ?_, text⟩
  have dialect : g.datasource.dialect = .mysql := mysql
  rw [SqlDatasource.readInserted, known, dialect]
  exact selected

/-- An insert is followed by the read of its row. -/
theorem readAfter_createOne (mysql : g.dialect = .mysql) (known : s.primaryKeyField = .ok key)
    (data : Record) {w : Script × ρ} (free : w.1.refusal = none) :
    Records (g.datasource.createOne s data) w fun log _ =>
      ReadAfter ((Statement.insert .reselect s data).compile .mysql) (s.insertedRead key data) log := by
  obtain ⟨r, selected, text⟩ := g.readInserted_eq mysql known data
  have writes := g.records_createOne s data free
  rw [selected, g.rereads_mysql mysql, mysql] at writes
  exact writes.mono fun log _ h => text ▸ h.readAfter

/-- An update of some columns is followed by the read of its row. -/
theorem readAfter_updateOne (mysql : g.dialect = .mysql) (known : s.primaryKeyField = .ok key)
    (id : Json) {data : Record} (filled : (Statement.updated s key data).isEmpty = false)
    {w : Script × ρ} (free : w.1.refusal = none) :
    Records (g.datasource.updateOne s id data) w fun log _ =>
      ReadAfter ((Statement.keyedUpdate s key id data).compile .mysql)
        (.keyed s.table key (coerceWrite (Statement.keyType s key) id .integer)) log := by
  obtain ⟨r, selected, text⟩ := Statement.compile_selectByKey known (some id)
  have style : Dialect.mysql.returning = .reselect := rfl
  have writes := g.records_updateOne s id data free
  rw [mysql, selected, g.rereads_mysql mysql, style, Statement.update_reselect known id filled]
    at writes
  refine writes.mono fun log _ h => ?_
  have after := h.readAfter
  rw [text] at after
  exact after

/-- **The row that is read back is the written one.**  After an insert it is so exactly if keys are
generated or the record has a key; the last generated key is asked for whenever the record has none. -/
theorem reads_back (mysql : g.dialect = .mysql) (known : s.primaryKeyField = .ok key) :
    (∀ (data : Record) (w : Script × ρ), ∃ insert read bound,
      Records (g.datasource.createOne s data) w (fun log _ =>
        if w.1.refusal.isSome then log = [] else ReadAfter insert read log) ∧
      insert.Inserts .mysql s.table bound ∧ (s.columnNames.Nodup → (Keyed.keys bound).Nodup) ∧
      (read = .lastGenerated s.table key ↔ s.generates key = true ∨ data.get? key = none) ∧
      (read.ReadsInserted s key bound ↔ s.generates key = true ∨ data.contains key = true)) ∧
    ∀ (id : Json) (data : Record) (w : Script × ρ),
      Records (g.datasource.updateOne s id data) w fun log _ =>
        if (Statement.updated s key data).isEmpty || w.1.refusal.isSome then log = []
        else ∃ update set v, ReadAfter update (.keyed s.table key v) log ∧
          update.Updates s.table key set v := by
  constructor
  · intro data w
    refine ⟨_, _, _, ?_, Statement.inserts_insert .mysql .reselect s data, Statement.nodup_boundCells,
      Schema.insertedRead_eq_lastGenerated_iff, Schema.readsInserted_iff known⟩
    cases refused : w.1.refusal with
    | some reason => exact .of_runFrom (runFrom_withConnection_refused refused) rfl
    | none => exact g.readAfter_createOne mysql known data refused
  · intro id data w
    have dialect : g.datasource.dialect = .mysql := mysql
    have style : Dialect.mysql.returning = .reselect := rfl
    cases filled : (Statement.updated s key data).isEmpty with
    | true =>
        have refused := Statement.update_empty known (List.isEmpty_iff.1 filled) .reselect id
        rw [SqlDatasource.updateOne, dialect, style, refused]
        exact .of_runFrom rfl rfl
    | false =>
        cases refused : w.1.refusal with
        | none =>
            refine (g.readAfter_updateOne mysql known id filled refused).mono fun log _ after => ?_
            exact ⟨_, _, _, after, Statement.updates_update known id filled⟩
        | some reason =>
            rw [SqlDatasource.updateOne, dialect, style, Statement.update_reselect known id filled]
            exact .of_runFrom (runFrom_withConnection_refused refused) rfl

/-- A table whose keys are texts that no server generates. -/
def tags : Schema :=
  .ofColumns "tags"
    [{ Column.plain "code" .string with primaryKey := true, nullable := false, default := some "none" },
     Column.plain "label" .string] []

/-- A tag is read back by its code. -/
theorem reads_back_tags :
    (GuardedCall.scripted .mysql tags).dialect = .mysql ∧ tags.primaryKeyField = .ok "code" ∧
    ∃ insert read bound,
      Records ((GuardedCall.scripted .mysql tags).datasource.createOne tags
        [("code", .string "r"), ("label", .string "red")]) (Script.empty, ())
        (fun log _ => ReadAfter insert read log) ∧
      insert.Inserts .mysql "tags" bound ∧ read.ReadsInserted tags "code" bound := by
  have known : tags.primaryKeyField = .ok "code" := rfl
  obtain ⟨creates, -⟩ := (GuardedCall.scripted .mysql tags).reads_back rfl known
  obtain ⟨insert, read, bound, records, inserts, -, -, reads⟩ :=
    creates [("code", .string "r"), ("label", .string "red")] (Script.empty, ())
  exact ⟨rfl, known, insert, read, bound, records, inserts, reads.2 (.inr rfl)⟩

/-- The code of the tag that comes back when one is stored, and the texts of the statements, if the row
of another tag is found. -/
def storing (data : Record) : Option String × List String :=
  let found : QueryOutput := .fetched [[("code", .string "b"), ("label", .string "blue")]]
  let start : Script := { Script.empty with replies := [.ok .empty, .ok found] }
  let run := runFrom ((GuardedCall.scripted .mysql tags).datasource.createOne tags data) (start, ())
  (run.1.toOption.bind fun row => (row.get? "code").bind Json.asString?,
    run.2.1.statements.map CompiledQuery.sql)

/-- After an insert without a key the server is asked for a key that it did not generate for it, and
another row comes back. -/
theorem reads_back_tags_lost :
    tags.generates "code" = false ∧ storing [("label", .string "red")] =
      (some "b",
        ["INSERT INTO \x60tags\x60 (\x60label\x60) VALUES (?)",
         "SELECT * FROM \x60tags\x60 WHERE \x60tags\x60.\x60code\x60 = LAST_INSERT_ID()"]) := by
  decide +kernel

end Recorder

end DataAccess
