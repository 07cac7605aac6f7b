import DataAccess.Schema.Codec
import DataAccess.Proofs.Json.Keyed
/-
**Schemas read back.**  A schema is cached in its serialised form.  Columns and relations read back as
themselves, and so does a schema whose declared key is the flagged one or stands in for a missing flag.
Every schema that was made of columns, or that was read, is of this kind.

Main definitions:

* `Schema.Built` — schemas that are made of columns and relations, or that were read.

Main results:

* `decodeList_map` — a list of written items;
* `Column.ofJson?_toJson` — a written column reads back as itself;
* `Schema.ofJson?_toJson_declared` — a written schema reads back as the one that it declares;
* `Schema.ofJson?_toJson`, `Schema.Built.ofJson?_toJson` — **a written schema reads back as itself**.
-/

set_option autoImplicit false

namespace DataAccess

/-- A list whose items read back as themselves does so as well. -/
theorem decodeList_map {α : Type} {decode : Decoder α} {encode : α → Json} {items : List α}
    (each : ∀ a ∈ items, decode (encode a) = some a) :
    decodeList decode (.array (items.map encode)) = some items := by
  rw [decodeList]
  induction items with
  | nil => rfl
  | cons a rest ih =>
      have others := ih fun b member => each b (List.mem_cons_of_mem _ member)
      rw [List.map_cons, List.mapM_cons, each a List.mem_cons_self, others]
      rfl

theorem decodeName_name (t : ColumnType) :
    decodeName ColumnType.names (.string t.name) = some t := by
  cases t <;> decide

theorem decodeBelow_nat {n bound : Nat} (below : n < bound) (small : bound ≤ 2 ^ 64) :
    decodeBelow bound (.nat n) = some n := by
  have range : -2 ^ 63 ≤ (n : Int) ∧ (n : Int) < 2 ^ 64 := by omega
  have positive : (0 : Int) ≤ n := by omega
  rw [decodeBelow, Json.asUnsigned?, Json.nat, Number.ofInt_of_inRange range]
  simp [Json.asNumber?, Number.asUnsigned?, positive, below]

/-! ### Members -/

/-- Members written in the order of their names, some of them left out. -/
theorem Members.of?_object {names : List String} (distinct : names.Nodup) {fields : Record}
    (listed : (Keyed.keys fields).Sublist names) :
    Members.of? names (.object fields) = some ⟨false, fields⟩ := by
  have known : fields.filter (fun entry => names.contains entry.1) = fields := by
    refine List.filter_eq_self.2 fun entry member => ?_
    exact List.contains_iff_mem.2 (listed.subset (Keyed.mem_keys member))
  have different : (fields.map Prod.fst).Nodup := distinct.sublist listed
  simp only [Members.of?, known, different, if_true]

theorem keys_optionalEntry_sublist (name : String) (v : Option Json) :
    (Keyed.keys (optionalEntry name v)).Sublist [name] := by
  cases v with
  | none => exact List.nil_sublist _
  | some v => exact List.Sublist.refl _

theorem get?_optionalEntry (name key : String) (v : Option Json) :
    Keyed.get? (optionalEntry name v) key = if name = key then v else none := by
  cases v with
  | none =>
      split <;> rfl
  | some v => rfl

/-- A member that is left out when unset. -/
theorem nullable_map {α : Type} {m : Members} {name : String} {decode : Decoder α}
    (encode : α → Json) {v : Option α} (given : m.given.get? name = v.map encode)
    (each : ∀ a, v = some a → (encode a).isNull = false ∧ decode (encode a) = some a) :
    m.nullable name decode = some v := by
  rw [Members.nullable, given]
  cases v with
  | none => rfl
  | some a =>
      obtain ⟨present, decoded⟩ := each a rfl
      cases written : encode a with
      | null => rw [written] at present; exact absurd present (by decide)
      | _ =>
          rw [written] at decoded
          simp [written, decoded]

/-! ### Columns -/

namespace Column

/-- The members of a column that are always written. -/
def fixedMembers (c : Column) : Record :=
  [("field", .string c.field), ("type", .string c.type.name), ("nullable", .bool c.nullable),
   ("required", .bool c.required), ("primary_key", .bool c.primaryKey),
   ("unique_key", .bool c.uniqueKey), ("foreign_key", .bool c.foreignKey),
   ("auto_increment", .bool c.autoIncrement)]

/-- The members of a column that are left out when unset. -/
def unsetMembers (c : Column) : Record :=
  optionalEntry "default" (c.default.map Json.string) ++
    (optionalEntry "enum_values" (c.enumValues.map stringsJson) ++
      optionalEntry "max_length" (c.maxLength.map Json.nat))

theorem toJson_eq (c : Column) : c.toJson = .object (c.fixedMembers ++ c.unsetMembers) := by
  rw [toJson, fixedMembers, unsetMembers, List.append_assoc, List.append_assoc]

theorem members (c : Column) :
    Members.of? memberNames c.toJson = some ⟨false, c.fixedMembers ++ c.unsetMembers⟩ := by
  rw [toJson_eq]
  refine Members.of?_object (by decide) ?_
  have fixed : Keyed.keys c.fixedMembers = ["field", "type", "nullable", "required",
    "primary_key", "unique_key", "foreign_key", "auto_increment"] := rfl
  have unset : (Keyed.keys c.unsetMembers).Sublist ["default", "enum_values", "max_length"] := by
    rw [Keyed.keys, unsetMembers, List.map_append, List.map_append]
    exact (keys_optionalEntry_sublist _ _).append
      ((keys_optionalEntry_sublist _ _).append (keys_optionalEntry_sublist _ _))
  rw [Keyed.keys, List.map_append]
  exact (List.Sublist.refl _).append unset

theorem get?_fixed {c : Column} {key : String} {v : Json}
    (h : c.fixedMembers.get? key = some v) :
    Keyed.get? (c.fixedMembers ++ c.unsetMembers) key = some v := by
  rw [Keyed.get?_append, h]
  rfl

theorem get?_unset {c : Column} {key : String} (h : c.fixedMembers.get? key = none) :
    Keyed.get? (c.fixedMembers ++ c.unsetMembers) key =
      (if "default" = key then c.default.map Json.string else none).or
        ((if "enum_values" = key then c.enumValues.map stringsJson else none).or
          (if "max_length" = key then c.maxLength.map Json.nat else none)) := by
  rw [Keyed.get?_append, h, Option.none_or, unsetMembers, Keyed.get?_append, Keyed.get?_append,
    get?_optionalEntry, get?_optionalEntry, get?_optionalEntry]

/-- A column whose length fits its member reads back as itself. -/
theorem ofJson?_toJson {c : Column} (fits : ∀ n, c.maxLength = some n → n < 2 ^ 32) :
    ofJson? c.toJson = some c := by
  obtain ⟨m, given, eq⟩ : ∃ m : Members, m.given = c.fixedMembers ++ c.unsetMembers ∧
      Members.of? memberNames c.toJson = some m := ⟨_, rfl, c.members⟩
  have text (key t : String) (h : c.fixedMembers.get? key = some (.string t)) :
      m.required key Json.asString? = some t := by
    rw [Members.required, given, get?_fixed h]
    rfl
  have flag (key : String) (b : Bool) (h : c.fixedMembers.get? key = some (.bool b)) :
      m.defaulted key Json.asBool? false = some b := by
    rw [Members.defaulted, given, get?_fixed h]
    rfl
  have type : m.required "type" (decodeName ColumnType.names) = some c.type := by
    rw [Members.required, given, get?_fixed rfl]
    exact decodeName_name c.type
  have default : m.nullable "default" Json.asString? = some c.default := by
    refine nullable_map Json.string ?_ fun t _ => ⟨rfl, rfl⟩
    rw [given, get?_unset rfl]
    cases c.default <;> rfl
  have enumValues : m.nullable "enum_values" (decodeList Json.asString?) = some c.enumValues := by
    refine nullable_map stringsJson ?_ fun items _ => ⟨rfl, decodeList_map fun _ _ => rfl⟩
    rw [given, get?_unset rfl]
    cases c.enumValues <;> rfl
  have maxLength : m.nullable "max_length" (decodeBelow (2 ^ 32)) = some c.maxLength := by
    refine nullable_map Json.nat ?_ fun n h =>
      ⟨rfl, decodeBelow_nat (fits n h) (by decide)⟩
    rw [given, get?_unset rfl]
    cases c.maxLength <;> rfl
  rw [ofJson?, eq]
  simp only [Option.bind_eq_bind, Option.bind_some, text "field" c.field rfl, type,
    flag "nullable" c.nullable rfl, flag "required" c.required rfl,
    flag "primary_key" c.primaryKey rfl, flag "unique_key" c.uniqueKey rfl,
    flag "foreign_key" c.foreignKey rfl, flag "auto_increment" c.autoIncrement rfl, default,
    enumValues, maxLength]

end Column

/-! ### Schemas -/

/-- What is written of a schema reads back as the schema that it declares. -/
theorem Schema.ofJson?_toJson_declared {s : Schema}
    (fits : ∀ c ∈ s.columns, ∀ n, c.maxLength = some n → n < 2 ^ 32) :
    Schema.ofJson? s.toJson = some (declared s.table s.primaryKey s.columns s.relations) := by
  have columns : decodeList Column.ofJson? (.array (s.columns.map Column.toJson)) =
      some s.columns := decodeList_map fun c member => Column.ofJson?_toJson (fits c member)
  have relations : decodeList Relation.ofJson? (.array (s.relations.map Relation.toJson)) =
      some s.relations := decodeList_map fun r _ => Relation.ofJson?_toJson r
  obtain ⟨m, given, eq⟩ : ∃ m : Members, m.given =
      [("table", .string s.table), ("primary_key", .string s.primaryKey),
       ("columns", .array (s.columns.map Column.toJson)),
       ("relations", .array (s.relations.map Relation.toJson))] ∧
      Members.of? memberNames s.toJson = some m :=
    ⟨_, rfl, Members.of?_object (by decide) (List.Sublist.refl _)⟩
  have one : m.required "table" Json.asString? = some s.table := by
    rw [Members.required, given]
    rfl
  have two : m.defaulted "primary_key" Json.asString? "" = some s.primaryKey := by
    rw [Members.defaulted, given]
    rfl
  have three : m.required "columns" (decodeList Column.ofJson?) = some s.columns := by
    rw [Members.required, given]
    exact columns
  have four : m.defaulted "relations" (decodeList Relation.ofJson?) [] = some s.relations := by
    rw [Members.defaulted, given]
    exact relations
  rw [ofJson?, eq]
  simp only [Option.bind_eq_bind, Option.bind_some, one, two, three, four]

/-- A schema reads back as itself if its declared key is the flagged one, or no column is flagged. -/
theorem Schema.ofJson?_toJson {s : Schema}
    (key : flaggedKey? s.columns = some s.primaryKey ∨ (flaggedKey? s.columns).getD "" = "")
    (fits : ∀ c ∈ s.columns, ∀ n, c.maxLength = some n → n < 2 ^ 32) :
    Schema.ofJson? s.toJson = some s := by
  have whole : declared s.table s.primaryKey s.columns s.relations = s := by
    rw [declared, ofColumns]
    rcases key with flagged | unflagged
    · rw [flagged]
      split <;> rfl
    · rw [unflagged]
      rfl
  rw [ofJson?_toJson_declared fits, whole]

/-! ### Schemas that were made or read -/

theorem decodeBelow_lt {bound n : Nat} {v : Json} (h : decodeBelow bound v = some n) :
    n < bound := by
  obtain ⟨m, -, below⟩ := Option.bind_eq_some_iff.1 h
  split at below
  · next lt => exact Option.some.inj below ▸ lt
  · exact absurd below (by simp)

/-- A member that is read was given and is not null. -/
theorem decode_of_nullable {α : Type} {m : Members} {name : String} {decode : Decoder α} {a : α}
    (h : m.nullable name decode = some (some a)) : ∃ v, decode v = some a := by
  rw [Members.nullable] at h
  split at h
  · exact absurd h (by simp)
  · exact absurd h (by simp)
  · next v _ _ =>
    obtain ⟨b, decoded, same⟩ := Option.map_eq_some_iff.1 h
    exact ⟨v, Option.some.inj same ▸ decoded⟩

/-- The items of a list that is read are read one by one. -/
theorem of_mem_decodeList {α : Type} {decode : Decoder α} {v : Json} {items : List α}
    (h : decodeList decode v = some items) {a : α} (member : a ∈ items) :
    ∃ v, decode v = some a := by
  rw [decodeList.eq_def] at h
  split at h
  · next given =>
    induction given generalizing items with
    | nil =>
        rw [List.mapM_nil] at h
        exact absurd (Option.some.inj h ▸ member) (by simp)
    | cons first rest ih =>
        rw [List.mapM_cons] at h
        obtain ⟨b, here, h⟩ := Option.bind_eq_some_iff.1 h
        obtain ⟨more, later, same⟩ := Option.bind_eq_some_iff.1 h
        rcases List.mem_cons.1 (Option.some.inj same ▸ member) with rfl | member
        · exact ⟨first, here⟩
        · exact ih member later
  · exact absurd h (by simp)

/-- The length of a column that is read fits its member. -/
theorem Column.maxLength_lt {v : Json} {c : Column} (h : Column.ofJson? v = some c) {n : Nat}
    (length : c.maxLength = some n) : n < 2 ^ 32 := by
  simp only [Column.ofJson?, Option.bind_eq_bind, Option.bind_eq_some_iff] at h
  obtain ⟨m, -, _, -, _, -, _, -, _, -, _, -, _, -, _, -, _, -, _, -, _, -, _, read, made⟩ := h
  rw [← Option.some.inj made] at length
  dsimp only at length
  rw [length] at read
  exact decodeBelow_lt (decode_of_nullable read).choose_spec

namespace Schema

/-- A schema that is made of columns and relations, or that was read. -/
inductive Built : Schema → Prop
  /-- The lengths of the columns fit their members. -/
  | made (table : String) {columns : List Column} (relations : List Relation)
      (fits : ∀ c ∈ columns, ∀ n, c.maxLength = some n → n < 2 ^ 32) :
      Built (ofColumns table columns relations)
  | read {v : Json} {s : Schema} (h : ofJson? v = some s) : Built s

/-- The key of a schema that is made or read is the flagged one, or nothing is flagged. -/
theorem declared_key (table primaryKey : String) (columns : List Column)
    (relations : List Relation) :
    let s := declared table primaryKey columns relations
    flaggedKey? s.columns = some s.primaryKey ∨ (flaggedKey? s.columns).getD "" = "" := by
  cases flagged : flaggedKey? columns with
  | none => exact .inr (by simp [declared, ofColumns, flagged])
  | some key =>
      by_cases nameless : key = ""
      · exact .inr (by simp [declared, ofColumns, flagged, nameless])
      · exact .inl (by simp [declared, ofColumns, flagged, nameless])

/-- **A schema that was made or read is written and read back as itself.** -/
theorem Built.ofJson?_toJson {s : Schema} (h : s.Built) : ofJson? s.toJson = some s := by
  cases h with
  | made table relations fits =>
      refine Schema.ofJson?_toJson ?_ fits
      rw [ofColumns]
      cases flagged : flaggedKey? _ with
      | none => exact .inr rfl
      | some key => exact .inl rfl
  | read h =>
      simp only [ofJson?, Option.bind_eq_bind, Option.bind_eq_some_iff] at h
      obtain ⟨m, -, table, -, key, -, columns, read, relations, -, made⟩ := h
      have whole := (Option.some.inj made).symm
      have kept : s.columns = columns := by
        rw [whole, declared]
        split <;> rfl
      refine Schema.ofJson?_toJson (whole ▸ declared_key table key columns relations) ?_
      intro c member n length
      obtain ⟨given, decoded⟩ := Option.bind_eq_some_iff.1 read
      obtain ⟨v, column⟩ := of_mem_decodeList decoded.2 (kept ▸ member)
      exact Column.maxLength_lt column length

end Schema
end DataAccess
