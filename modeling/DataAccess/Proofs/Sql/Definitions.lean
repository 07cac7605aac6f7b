import DataAccess.Proofs.Sql.Literals
import DataAccess.Sql.Bootstrap
/-
**Reading column definitions.**  A column is created by one text: its name, its type, and whichever
clauses it has, in a fixed order.  Names, values and default expressions are arbitrary texts, yet every
definition reads back.  A name ends at a quote that is not doubled, a type at the first blank outside of
literals and brackets, each clause begins with a letter of its own, and the default expression is at the
end, where nothing is read any more.

Main definitions:

* `ReadType`, `ReadColumn` — what a reader finds in a definition;
* `readType?`, `takeClause`, `readColumn?` — reading a type, a clause and a definition;
* `Solid` — a type that ends where it was written to;
* `Column.said` — what the definition of a column is to say.

Main results:

* `Dialect.solid_nativeType`, `Dialect.readType?_nativeType` — the type of a column is solid unless it is
  quoted, and reads back;
* `takeClause_spread` — a clause is found exactly where it was written;
* `Dialect.readColumn?_columnDefinition` — **a definition reads back as the column**.
-/

set_option autoImplicit false

namespace DataAccess

/-! ### Readers -/

/-- The type of a column, as it reads. -/
inductive ReadType
  /-- A type with a name of its own. -/
  | named (ident : String)
  /-- A type that the dialect knows, as written. -/
  | builtIn (written : String)
deriving DecidableEq, Repr

/-- A column definition, as it reads. -/
structure ReadColumn where
  field : String
  type : ReadType
  generated : Bool
  primaryKey : Bool
  notNull : Bool
  unique : Bool
  /-- The default and the check, as written. -/
  rest : String
deriving DecidableEq, Repr

/-- How deep a reader is inside of a type. -/
structure Nest where
  /-- Whether a literal is open. -/
  quoting : Bool
  /-- The number of open brackets. -/
  depth : Nat
deriving DecidableEq, Repr

namespace Nest

/-- Outside of literals and brackets. -/
def top : Nest := ⟨false, 0⟩

/-- How deep the reader is after a character; brackets do not count in a literal. -/
def after (n : Nest) (c : Char) : Nest :=
  if c = '\'' then { n with quoting := !n.quoting }
  else if n.quoting then n
  else if c = '(' then { n with depth := n.depth + 1 }
  else if c = ')' then { n with depth := n.depth - 1 }
  else n

/-- How deep the reader is after a text, if the text has no blank on top. -/
def through (n : Nest) : List Char → Option Nest
  | [] => some n
  | c :: rest => if c = ' ' ∧ n = top then none else (n.after c).through rest

end Nest

/-- A text before and from its first blank on top. -/
def spanType (n : Nest) : List Char → List Char × List Char
  | [] => ([], [])
  | c :: rest =>
    if c = ' ' ∧ n = .top then ([], c :: rest)
    else
      let (written, more) := spanType (n.after c) rest
      (c :: written, more)

/-- The type at the start of a text, and what follows it. -/
def readType? (d : Dialect) : List Char → Option (ReadType × List Char)
  | [] => none
  | c :: rest =>
    if c = d.opening then
      (Text.readQuoted d.closing rest).map fun (ident, more) => (.named (String.ofList ident), more)
    else
      let (written, more) := spanType .top (c :: rest)
      some (.builtIn (String.ofList written), more)

/-- What follows a fixed text. -/
def after? (fixed : String) (s : List Char) : Option (List Char) := s.dropPrefix? fixed.toList

/-- Whether a text begins with a clause behind a blank, and what follows the clause. -/
def takeClause (clause : String) (s : List Char) : Bool × List Char :=
  match after? (" " ++ clause) s with
  | some rest => (true, rest)
  | none => (false, s)

/-- The column that a definition describes. -/
def readColumn? (d : Dialect) (s : List Char) : Option ReadColumn := do
  let (.named field, ' ' :: rest) ← readType? d s | none
  let (type, rest) ← readType? d rest
  let (generated, rest) := takeClause d.identity rest
  let (primaryKey, rest) := takeClause "PRIMARY KEY" rest
  let (notNull, rest) := takeClause "NOT NULL" rest
  let (unique, rest) := takeClause "UNIQUE" rest
  some { field, type, generated, primaryKey, notNull, unique, rest := String.ofList rest }

/-! ### Types -/

namespace Nest

theorem through_append (n : Nest) (s t : List Char) :
    n.through (s ++ t) = (n.through s).bind fun m => m.through t := by
  induction s generalizing n with
  | nil => rfl
  | cons c s ih =>
      rw [List.cons_append, through, through]
      split
      · rfl
      · exact ih _

/-- Characters that are neither blanks, quotes nor brackets do not change the depth. -/
theorem through_plain (n : Nest) {s : List Char}
    (plain : ∀ c ∈ s, c ≠ ' ' ∧ c ≠ '\'' ∧ c ≠ '(' ∧ c ≠ ')') : n.through s = some n := by
  induction s with
  | nil => rfl
  | cons c s ih =>
      obtain ⟨⟨blank, quote, opening, closing⟩, others⟩ := List.forall_mem_cons.1 plain
      have same : n.after c = n := by simp [after, quote, opening, closing]
      rw [through, if_neg (fun h => blank h.1), same]
      exact ih others

/-- A literal is closed where it ends, whatever is in it: a quote inside is doubled. -/
theorem through_quoted (depth : Nat) (value : String) :
    (⟨false, depth⟩ : Nest).through (quoted value) = some ⟨false, depth⟩ := by
  have inside (s : List Char) :
      (⟨true, depth⟩ : Nest).through (Text.double '\'' s) = some ⟨true, depth⟩ := by
    induction s with
    | nil => rfl
    | cons c s ih =>
        rw [Text.double]
        split
        · next quote => simpa [through, after, quote] using ih
        · next quote => simpa [through, after, quote, top] using ih
  have written : quoted value = '\'' :: (Text.double '\'' value.toList ++ ['\'']) := rfl
  have opened : (⟨false, depth⟩ : Nest).after '\'' = ⟨true, depth⟩ := rfl
  rw [written, through, if_neg (by simp), opened, through_append, inside]
  rfl

end Nest

/-- A text without a blank on top is read up to its end. -/
theorem spanType_append {n m : Nest} {s : List Char} (solid : n.through s = some m)
    (rest : List Char) :
    spanType n (s ++ rest) = (s ++ (spanType m rest).1, (spanType m rest).2) := by
  induction s generalizing n with
  | nil =>
      obtain rfl := Option.some.inj solid
      rfl
  | cons c s ih =>
      rw [Nest.through] at solid
      split at solid
      · exact absurd solid (by simp)
      · next here =>
        rw [List.cons_append, spanType, if_neg here, ih solid]
        rfl

/-- Behind a type nothing follows, or a blank. -/
def AtBlank (rest : List Char) : Prop := ∀ c ∈ rest.head?, c = ' '

theorem spanType_top {rest : List Char} (ends : AtBlank rest) : spanType .top rest = ([], rest) := by
  cases rest with
  | nil => rfl
  | cons c rest => rw [spanType, if_pos ⟨ends c rfl, rfl⟩]

/-- A type that ends where it was written to: no blank on top, and not quoted. -/
structure Solid (d : Dialect) (native : String) : Prop where
  closed : Nest.top.through native.toList = some .top
  initial : native.toList.head?.any (· ≠ d.opening) = true

instance (d : Dialect) (native : String) : Decidable (Solid d native) :=
  decidable_of_iff (Nest.top.through native.toList = some .top ∧
      native.toList.head?.any (· ≠ d.opening) = true)
    ⟨fun ⟨closed, initial⟩ => ⟨closed, initial⟩, fun h => ⟨h.closed, h.initial⟩⟩

theorem Solid.exists_cons {d : Dialect} {native : String} (solid : Solid d native) :
    ∃ c more, native.toList = c :: more ∧ c ≠ d.opening := by
  obtain ⟨c, first, other⟩ := (Option.any_eq_true _ _).1 solid.initial
  obtain ⟨more, letters⟩ := List.head?_eq_some_iff.1 first
  exact ⟨c, more, letters, of_decide_eq_true other⟩

/-- A type that the dialect knows reads back. -/
theorem readType?_solid {d : Dialect} {native : String} {rest : List Char} (solid : Solid d native)
    (ends : AtBlank rest) :
    readType? d (native.toList ++ rest) = some (.builtIn native, rest) := by
  obtain ⟨c, more, letters, other⟩ := solid.exists_cons
  have span := spanType_append solid.closed rest
  rw [spanType_top ends, List.append_nil] at span
  rw [letters] at span
  rw [letters, List.cons_append, readType?, if_neg other, ← List.cons_append, span]
  simp only
  rw [← letters, String.ofList_toList]

/-- A quoted name reads back. -/
theorem readType?_quote {d : Dialect} (ident : String) {rest : List Char} (ends : AtBlank rest) :
    readType? d ((d.quote ident).toList ++ rest) = some (.named ident, rest) := by
  have after : rest.head? ≠ some d.closing := by
    intro closing
    have blank := ends _ closing
    cases d <;> exact absurd blank (by decide)
  rw [d.toList_quote, List.cons_append, readType?, if_pos rfl,
    Dialect.readQuoted_quote d ident rest after]
  simp

/-- The values of an enum column, none if it declares none. -/
def Column.values (c : Column) : List String := c.enumValues.getD []

theorem enumLiterals_eq_ok {c : Column} {listed : String} :
    enumLiterals c = .ok listed ↔
      c.values ≠ [] ∧ Text.join ", " (c.values.map literal) = listed := by
  simp only [enumLiterals, Column.values]
  split
  · next none? => simp [List.isEmpty_iff.1 none?]
  · next some? => simp [mt List.isEmpty_iff.2 some?]

/-! ### Native types -/

/-- Something in brackets behind a type. -/
theorem Solid.bracketed {d : Dialect} {type inside : String} (solid : Solid d type)
    (closed : (⟨false, 1⟩ : Nest).through inside.toList = some ⟨false, 1⟩) :
    Solid d (type ++ "(" ++ inside ++ ")") := by
  have letters : (type ++ "(" ++ inside ++ ")").toList =
      type.toList ++ '(' :: (inside.toList ++ [')']) := by
    simp [String.toList_append]
  constructor
  · have opened : Nest.top.after '(' = ⟨false, 1⟩ := rfl
    rw [letters, Nest.through_append, solid.closed, Option.bind_some, Nest.through,
      if_neg (by simp), opened, Nest.through_append, closed]
    rfl
  · obtain ⟨c, more, written, other⟩ := solid.exists_cons
    rw [letters, written]
    exact decide_eq_true other

/-- A length within brackets. -/
theorem Nest.through_toString (n : Nest) (length : Nat) :
    n.through (toString length).toList = some n := by
  refine n.through_plain fun c member => ?_
  have digit := Text.isDigit_of_mem_toDigits (n := length) (by simpa using member)
  refine ⟨?_, ?_, ?_, ?_⟩ <;> rintro rfl <;> exact absurd digit (by decide)

/-- Literals within brackets. -/
theorem Nest.through_literals (first : String) (rest : List String) :
    (⟨false, 1⟩ : Nest).through (Text.join ", " ((first :: rest).map literal)).toList =
      some ⟨false, 1⟩ := by
  rw [toList_join_literals, through_append, through_quoted, Option.bind_some]
  induction rest with
  | nil => rfl
  | cons next rest ih =>
      have separated : (⟨false, 1⟩ : Nest).through [',', ' '] = some ⟨false, 1⟩ := rfl
      have written : (next :: rest).flatMap (fun value => ',' :: ' ' :: quoted value) =
          [',', ' '] ++ (quoted next ++ rest.flatMap fun value => ',' :: ' ' :: quoted value) := by
        simp
      rw [written, through_append, separated, Option.bind_some, through_append, through_quoted]
      exact ih

namespace Dialect

/-- Whether a column gets a type of its own. -/
def namesType (d : Dialect) (c : Column) : Bool := d == .postgres && c.type == .enum

/-- A type that is not quoted has no blank on top. -/
theorem solid_nativeType {d : Dialect} {table native : String} {c : Column}
    (unnamed : d.namesType c = false) (type : d.nativeType table c = .ok native) :
    Solid d native := by
  have sized {name : String} (solid : Solid d name) :
      Solid d (name ++ "(" ++ toString (c.maxLength.getD 255) ++ ")") :=
    solid.bracketed (Nest.through_toString _ _)
  cases kind : c.type with
  | number =>
      cases d
      all_goals
        simp only [nativeType, kind] at type
        obtain rfl := Except.ok.inj type
        split <;> decide +kernel
  | string =>
      cases d
      all_goals
        simp only [nativeType, kind] at type
        obtain rfl := Except.ok.inj type
        exact sized (by decide +kernel)
  | boolean | date | json =>
      cases d
      all_goals
        simp only [nativeType, kind] at type
        obtain rfl := Except.ok.inj type
        decide +kernel
  | enum =>
      cases d with
      | postgres => simp [namesType, kind] at unnamed
      | mysql =>
          simp only [nativeType, kind] at type
          obtain ⟨listed, literals, rfl⟩ := Outcome.map_eq_ok.1 type
          obtain ⟨filled, rfl⟩ := enumLiterals_eq_ok.1 literals
          obtain ⟨first, rest, values⟩ := List.exists_cons_of_ne_nil filled
          have enum : Solid .mysql "ENUM" := by decide +kernel
          rw [values]
          exact enum.bracketed (Nest.through_literals first rest)
      | mssql =>
          simp only [nativeType, kind] at type
          obtain rfl := Except.ok.inj type
          exact sized (by decide +kernel)
  | unknown => simp [nativeType_unknown kind] at type

end Dialect

/-! ### Clauses -/

/-- Words, each behind a blank. -/
def spread (words : List String) : List Char := words.flatMap fun word => ' ' :: word.toList

/-- A clause that may be there. -/
def clauseIf (there : Bool) (clause : String) : List String := if there then [clause] else []

/-- Every word begins with one of these letters. -/
def Begin (initials : List Char) (words : List String) : Prop :=
  ∀ word ∈ words, ∃ c ∈ initials, word.toList.head? = some c

theorem Begin.cons {initials : List Char} {words : List String} {c : Char} {clause : String}
    (first : clause.toList.head? = some c) (begins : Begin initials words) (there : Bool) :
    Begin (c :: initials) (clauseIf there clause ++ words) := by
  intro word member
  rcases List.mem_append.1 member with here | further
  · cases there with
    | false => exact absurd here List.not_mem_nil
    | true =>
        obtain rfl := List.mem_singleton.1 here
        exact ⟨c, List.mem_cons_self, first⟩
  · obtain ⟨other, listed, initial⟩ := begins word further
    exact ⟨other, List.mem_cons_of_mem _ listed, initial⟩

theorem atBlank_spread (words : List String) : AtBlank (spread words) := by
  cases words with
  | nil => simp [AtBlank, spread]
  | cons word rest => simp [AtBlank, spread]

theorem after?_eq_some {fixed : String} {s rest : List Char} :
    after? fixed s = some rest ↔ s = fixed.toList ++ rest := by
  rw [after?, List.dropPrefix?_eq_some_iff]
  simp

/-- A clause is found exactly where it was written: what follows it begins with other letters. -/
theorem takeClause_spread {initials : List Char} {words : List String} {clause : String}
    {initial : Char} (first : clause.toList.head? = some initial) (begins : Begin initials words)
    (apart : initial ∉ initials) (there : Bool) :
    takeClause clause (spread (clauseIf there clause ++ words)) = (there, spread words) := by
  rw [takeClause]
  cases there with
  | true =>
      have written : spread (clauseIf true clause ++ words) =
          (" " ++ clause).toList ++ spread words := by
        simp [clauseIf, spread, String.toList_append]
      rw [after?_eq_some.2 written]
  | false =>
      have absent : after? (" " ++ clause) (spread words) = none := by
        refine Option.eq_none_iff_forall_ne_some.2 fun rest found => ?_
        obtain ⟨more, clause⟩ := List.head?_eq_some_iff.1 first
        have written := after?_eq_some.1 found
        rw [String.toList_append, clause] at written
        cases words with
        | nil => simp [spread] at written
        | cons word others =>
            obtain ⟨c, listed, letter⟩ := begins word List.mem_cons_self
            obtain ⟨letters, same⟩ := List.head?_eq_some_iff.1 letter
            have here : c = initial ∧ letters ++ spread others = more ++ rest := by
              simpa [spread, same] using written
            exact apart (here.1 ▸ listed)
      have written : spread (clauseIf false clause ++ words) = spread words := rfl
      rw [written, absent]

/-! ### Column definitions -/

/-- What is behind the clauses of a definition: the default and the check. -/
def Column.tail (d : Dialect) (c : Column) : List String :=
  (c.default.map fun e => "DEFAULT " ++ e).toList ++ (d.enumCheck c).toList

/-- What the definition of a column is to say; `native` is its type, unless it has one of its own. -/
def Column.said (d : Dialect) (table : String) (c : Column) (native : String) : ReadColumn :=
  { field := c.field
    type := if d.namesType c then .named (Dialect.enumTypeName table c) else .builtIn native
    generated := c.isServerGenerated
    primaryKey := c.primaryKey
    notNull := !c.primaryKey && !c.nullable
    unique := !c.primaryKey && c.uniqueKey
    rest := String.ofList (spread (c.tail d)) }

namespace Dialect

/-- The type that a column is created with reads back. -/
theorem readType?_nativeType {d : Dialect} {table native : String} {c : Column} {rest : List Char}
    (type : d.nativeType table c = .ok native) (ends : AtBlank rest) :
    readType? d (native.toList ++ rest) = some ((c.said d table native).type, rest) := by
  rw [Column.said]
  cases named : d.namesType c with
  | false =>
      rw [if_neg Bool.false_ne_true]
      exact readType?_solid (solid_nativeType named type) ends
  | true =>
      obtain ⟨rfl, kind⟩ : d = .postgres ∧ c.type = .enum := by simpa [namesType] using named
      simp only [nativeType, kind] at type
      obtain rfl := Except.ok.inj type
      rw [if_pos rfl]
      exact readType?_quote _ ends

theorem begin_tail (d : Dialect) (c : Column) : Begin ['D', 'C'] (c.tail d) := by
  intro word member
  rcases List.mem_append.1 member with default | check
  · obtain ⟨e, -, rfl⟩ := Option.map_eq_some_iff.1 (Option.mem_toList.1 default)
    exact ⟨'D', by simp, by simp [String.toList_append]⟩
  · rw [Option.mem_toList, enumCheck.eq_def] at check
    split at check
    · split at check
      · obtain rfl := Option.some.inj check
        exact ⟨'C', by simp, by simp [String.toList_append]⟩
      · exact absurd check (by simp)
    · exact absurd check (by simp)

/-- The definition of a column: the name, the type, and the clauses that apply. -/
theorem columnDefinition_eq_ok {d : Dialect} {table definition : String} {c : Column}
    (defined : d.columnDefinition table c = .ok definition) :
    ∃ native, d.nativeType table c = .ok native ∧
      definition.toList = (d.quote c.field).toList ++ spread (native ::
        (clauseIf c.isServerGenerated d.identity ++ (clauseIf c.primaryKey "PRIMARY KEY" ++
          (clauseIf (!c.primaryKey && !c.nullable) "NOT NULL" ++
            (clauseIf (!c.primaryKey && c.uniqueKey) "UNIQUE" ++ c.tail d))))) := by
  obtain ⟨native, type, text⟩ := Outcome.bind_eq_ok.1 defined
  refine ⟨native, type, ?_⟩
  obtain rfl := Except.ok.inj text
  have clauses : (if c.primaryKey then ["PRIMARY KEY"] else
        (if c.nullable then [] else ["NOT NULL"]) ++ if c.uniqueKey then ["UNIQUE"] else []) =
      clauseIf c.primaryKey "PRIMARY KEY" ++ (clauseIf (!c.primaryKey && !c.nullable) "NOT NULL" ++
        clauseIf (!c.primaryKey && c.uniqueKey) "UNIQUE") := by
    cases c.primaryKey <;> cases c.nullable <;> cases c.uniqueKey <;> rfl
  rw [clauses, List.cons_append, List.cons_append, List.cons_append, List.cons_append,
    List.cons_append, Text.toList_join]
  simp only [spread, clauseIf, Column.tail, List.append_assoc, List.nil_append, List.cons_append]
  rfl

/-- **A definition reads back as the column.** -/
theorem readColumn?_columnDefinition {d : Dialect} {table definition : String} {c : Column}
    (defined : d.columnDefinition table c = .ok definition) :
    ∃ native, d.nativeType table c = .ok native ∧
      readColumn? d definition.toList = some (c.said d table native) := by
  obtain ⟨native, type, written⟩ := columnDefinition_eq_ok defined
  refine ⟨native, type, ?_⟩
  -- each clause is told by its first letter from those behind it
  have tail := begin_tail d c
  have unique : Begin ['U', 'D', 'C'] (clauseIf (!c.primaryKey && c.uniqueKey) "UNIQUE" ++ c.tail d) :=
    tail.cons rfl _
  have notNull := unique.cons (show "NOT NULL".toList.head? = some 'N' from rfl)
    (!c.primaryKey && !c.nullable)
  have primaryKey := notNull.cons (show "PRIMARY KEY".toList.head? = some 'P' from rfl) c.primaryKey
  obtain ⟨initial, identity, apart⟩ :
      ∃ c, d.identity.toList.head? = some c ∧ c ∉ ['P', 'N', 'U', 'D', 'C'] := by
    cases d <;> exact ⟨_, rfl, by decide⟩
  rw [written, readColumn?, readType?_quote _ (atBlank_spread _)]
  simp only [Option.bind_eq_bind, Option.bind_some, spread, List.flatMap_cons, List.cons_append]
  rw [← spread, readType?_nativeType type (atBlank_spread _)]
  simp only [Option.bind_some]
  rw [takeClause_spread identity primaryKey apart]
  simp only
  rw [takeClause_spread rfl notNull (by decide)]
  simp only
  rw [takeClause_spread rfl unique (by decide)]
  simp only
  rw [takeClause_spread rfl tail (by decide)]
  rfl

end Dialect

end DataAccess
