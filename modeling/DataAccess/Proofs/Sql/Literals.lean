import Mathlib.Data.List.DropRight
import DataAccess.Proofs.Outcome
import DataAccess.Proofs.Sql.Lexing
import DataAccess.Proofs.Text.Cutting
import DataAccess.Schema.Validation
import DataAccess.Sql.Catalog
/-
**Lists of literals.**  The values of an enum column are written as literals, with a comma and a blank
between neighbours.  Whoever minds the quotes reads every such list back.  The reader of inline types does
not: it cuts the list at every comma, and strips all quotes from the ends of a piece.  It finds the values
again exactly if none of them has a comma, and none begins or ends with a quote.

Main definitions:

* `readLiterals?` — the values of a list of literals, and what follows it;
* `Inlined` — a value that an inline list can hold.

Main results:

* `readLiterals?_join` — **a list of literals reads back**;
* `inlined_of_inlineEnum?` — what is read out of an inline type can be held by one;
* `inlineEnum?_of_inlined` — such values are found again;
* `exists_inlineEnum?` — when an inline list reads back;
* `enum_kept_iff` — **when an enum column is described with its values**.
-/

set_option autoImplicit false

namespace DataAccess

/-! ### Literals -/

/-- The characters of a literal. -/
def quoted (value : String) : List Char := Text.enclose '\'' '\'' value.toList

theorem toList_literal (value : String) : (literal value).toList = quoted value :=
  String.toList_ofList

/-- The first literal, and each further one behind a comma and a blank. -/
theorem toList_join_literals (first : String) (rest : List String) :
    (Text.join ", " ((first :: rest).map literal)).toList =
      quoted first ++ rest.flatMap fun value => ',' :: ' ' :: quoted value := by
  rw [List.map_cons, Text.toList_join, List.flatMap_map, toList_literal]
  refine congrArg (quoted first ++ ·) (List.flatMap_congr fun value _ => ?_)
  rw [toList_literal]
  rfl

/-- The values of a list of literals, and what follows the list. -/
def readLiterals? : List Char → Option (List String × List Char)
  | '\'' :: rest =>
    match _found : Text.readQuoted '\'' rest with
    | none => none
    | some (value, ',' :: ' ' :: more) =>
      (readLiterals? more).map fun (values, after) => (String.ofList value :: values, after)
    | some (value, after) => some ([String.ofList value], after)
  | _ => none
termination_by s => s.length
decreasing_by
  have shorter := Text.readQuoted_length _found
  simp only [List.length_cons] at shorter ⊢
  omega

/-- A literal is read up to its end. -/
theorem readQuoted_quoted (value : String) {after : List Char} (unquoted : after.head? ≠ some '\'') :
    ∃ s, quoted value ++ after = '\'' :: s ∧
      Text.readQuoted '\'' s = some (value.toList, after) := by
  refine ⟨Text.double '\'' value.toList ++ '\'' :: after, ?_, ?_⟩
  · simp [quoted, Text.enclose]
  · exact Text.readQuoted_enclose value.toList after unquoted

/-- A literal with a further one behind it. -/
theorem readLiterals?_more (value : String) (more : List Char) :
    readLiterals? (quoted value ++ ',' :: ' ' :: more) =
      (readLiterals? more).map fun (values, after) => (value :: values, after) := by
  obtain ⟨s, written, read⟩ := @readQuoted_quoted value (',' :: ' ' :: more) (by simp)
  rw [written, readLiterals?]
  split
  · next none? =>
    rw [read] at none?
    exact absurd none? (by simp)
  · next some? =>
    rw [read] at some?
    cases some?
    rw [String.ofList_toList]
  · next other some? =>
    rw [read] at some?
    cases some?
    exact absurd rfl (other _)

/-- The last literal of a list. -/
theorem readLiterals?_last (value : String) {after : List Char}
    (ends : ∀ c ∈ after.head?, c ≠ '\'' ∧ c ≠ ',') :
    readLiterals? (quoted value ++ after) = some ([value], after) := by
  obtain ⟨s, written, read⟩ := readQuoted_quoted value fun quote => (ends '\'' quote).1 rfl
  rw [written, readLiterals?]
  split
  · next none? =>
    rw [read] at none?
    exact absurd none? (by simp)
  · next some? =>
    rw [read] at some?
    cases some?
    exact absurd rfl (ends ',' rfl).2
  · next some? =>
    rw [read] at some?
    cases some?
    rw [String.ofList_toList]

/-- **A list of literals reads back**, if what follows it is neither a quote nor a comma. -/
theorem readLiterals?_join (first : String) (rest : List String) {after : List Char}
    (ends : ∀ c ∈ after.head?, c ≠ '\'' ∧ c ≠ ',') :
    readLiterals? ((Text.join ", " ((first :: rest).map literal)).toList ++ after) =
      some (first :: rest, after) := by
  rw [toList_join_literals]
  induction rest generalizing first with
  | nil =>
      rw [List.flatMap_nil, List.append_nil]
      exact readLiterals?_last first ends
  | cons next rest ih =>
      have written : quoted first ++ (next :: rest).flatMap (fun value => ',' :: ' ' :: quoted value) ++
          after = quoted first ++ ',' :: ' ' ::
            (quoted next ++ rest.flatMap (fun value => ',' :: ' ' :: quoted value) ++ after) := by
        simp
      rw [written, readLiterals?_more, ih next]
      rfl

/-! ### Quotes at the ends -/

namespace Text

variable {quote : Char}

theorem head?_double (s : List Char) : (double quote s).head? = s.head? := by
  cases s with
  | nil => rfl
  | cons c rest =>
      rw [double]
      split <;> rfl

theorem getLast?_double (s : List Char) : (double quote s).getLast? = s.getLast? := by
  induction s with
  | nil => rfl
  | cons c rest ih =>
      rw [double]
      split <;> simp [List.getLast?_cons, ih]

theorem mem_of_mem_double {s : List Char} {c : Char} (h : c ∈ double quote s) : c ∈ s := by
  induction s with
  | nil => exact h
  | cons d rest ih =>
      rw [double] at h
      split at h <;> grind

theorem head?_undouble (s : List Char) : (undouble quote s).head? = s.head? := by
  fun_cases undouble quote s with
  | case1 a b rest same => simp [same.1]
  | case2 => rfl
  | case3 => rfl

theorem getLast?_undouble (s : List Char) : (undouble quote s).getLast? = s.getLast? := by
  fun_induction undouble quote s with
  | case1 a b rest same ih => simp [List.getLast?_cons, ih, same]
  | case2 a b rest other ih => simp [List.getLast?_cons, ih]
  | case3 => rfl

theorem mem_of_mem_undouble {s : List Char} {c : Char} (h : c ∈ undouble quote s) : c ∈ s := by
  fun_induction undouble quote s with
  | case1 a b rest same ih => grind
  | case2 a b rest other ih => grind
  | case3 => exact h

theorem mem_of_mem_trim {s : List Char} {c : Char} (h : c ∈ trim s) : c ∈ s := by
  rw [trim, List.mem_reverse] at h
  have inside := (List.dropWhile_sublist isBlank).subset h
  rw [List.mem_reverse] at inside
  exact (List.dropWhile_sublist isBlank).subset inside

/-- A blank in front is trimmed. -/
theorem trim_blank (s : List Char) : trim (' ' :: s) = trim s := rfl

end Text

theorem trimQuotes_eq (s : List Char) :
    trimQuotes s = (s.dropWhile (· == '\'')).rdropWhile (· == '\'') := rfl

theorem mem_of_mem_trimQuotes {s : List Char} {c : Char} (h : c ∈ trimQuotes s) : c ∈ s := by
  rw [trimQuotes_eq] at h
  exact (List.dropWhile_sublist _).subset ((List.rdropWhile_prefix _ _).subset h)

theorem head?_dropQuotes (s : List Char) : (s.dropWhile (· == '\'')).head? ≠ some '\'' := by
  intro head
  have first := List.head?_dropWhile_not (· == '\'') s
  rw [head] at first
  exact absurd first (by simp)

theorem getLast?_trimQuotes (s : List Char) : (trimQuotes s).getLast? ≠ some '\'' := by
  rw [trimQuotes, List.getLast?_reverse]
  exact head?_dropQuotes _

theorem head?_trimQuotes (s : List Char) : (trimQuotes s).head? ≠ some '\'' := by
  intro head
  obtain ⟨rest, begins⟩ := List.head?_eq_some_iff.1 head
  obtain ⟨cut, whole⟩ := List.rdropWhile_prefix (· == '\'') (s.dropWhile (· == '\''))
  rw [← trimQuotes_eq, begins] at whole
  exact head?_dropQuotes s (by rw [← whole]; rfl)

/-- Of a text between quotes, one that has none at its own ends is left. -/
theorem trimQuotes_between {s : List Char} (head : s.head? ≠ some '\'')
    (last : s.getLast? ≠ some '\'') : trimQuotes ('\'' :: s ++ ['\'']) = s := by
  cases s with
  | nil => rfl
  | cons c rest =>
      have other : c ≠ '\'' := by simpa using head
      have front : ('\'' :: (c :: rest) ++ ['\'']).dropWhile (· == '\'') = c :: rest ++ ['\''] := by
        simp [other]
      rw [trimQuotes_eq, front, List.rdropWhile_concat_pos _ _ _ (by simp),
        List.rdropWhile_eq_self_iff]
      intro filled quote
      rw [beq_iff_eq] at quote
      exact last (by rw [List.getLast?_eq_some_getLast filled, quote])

/-! ### Inline types -/

/-- A value that an inline list can hold: it has no comma, and no quote at its ends. -/
structure Inlined (value : String) : Prop where
  whole : ',' ∉ value.toList
  head : value.toList.head? ≠ some '\''
  last : value.toList.getLast? ≠ some '\''

instance (value : String) : Decidable (Inlined value) :=
  decidable_of_iff (',' ∉ value.toList ∧ value.toList.head? ≠ some '\'' ∧
      value.toList.getLast? ≠ some '\'')
    ⟨fun ⟨whole, head, last⟩ => ⟨whole, head, last⟩, fun h => ⟨h.whole, h.head, h.last⟩⟩

/-- The value that a piece of an inline list is read as. -/
def inlineValue (piece : List Char) : String :=
  String.ofList (Text.undouble '\'' (trimQuotes (Text.trim piece)))

/-- Every piece without a comma is read as a value that an inline list can hold. -/
theorem inlined_inlineValue {piece : List Char} (whole : ',' ∉ piece) :
    Inlined (inlineValue piece) := by
  have letters : (inlineValue piece).toList = Text.undouble '\'' (trimQuotes (Text.trim piece)) :=
    String.toList_ofList
  constructor
  · rw [letters]
    intro comma
    exact whole (Text.mem_of_mem_trim (mem_of_mem_trimQuotes (Text.mem_of_mem_undouble comma)))
  · rw [letters, Text.head?_undouble]
    exact head?_trimQuotes _
  · rw [letters, Text.getLast?_undouble]
    exact getLast?_trimQuotes _

theorem trim_quoted (value : String) : Text.trim (quoted value) = quoted value := by
  have first : (quoted value).head? = some '\'' := rfl
  have last : (quoted value).getLast? = some '\'' := List.getLast?_concat
  refine Text.trim_eq_self ?_ ?_
  · rw [first]
    rintro c ⟨⟩
    decide
  · rw [last]
    rintro c ⟨⟩
    decide

/-- A value that an inline list can hold is read from its literal. -/
theorem inlineValue_quoted {value : String} (inlined : Inlined value) :
    inlineValue (quoted value) = value := by
  have between : trimQuotes (quoted value) = Text.double '\'' value.toList :=
    trimQuotes_between (by rw [Text.head?_double]; exact inlined.head)
      (by rw [Text.getLast?_double]; exact inlined.last)
  rw [inlineValue, trim_quoted, between, Text.undouble_double, String.ofList_toList]

/-- The reader of inline types cuts the list at its commas. -/
theorem inlineEnum?_written (listed : String) :
    inlineEnum? ("ENUM(" ++ listed ++ ")") =
      some ((Text.split ',' listed.toList).map inlineValue) := by
  have letters : ("ENUM(" ++ listed ++ ")").toList =
      ['E', 'N', 'U', 'M', '('] ++ (listed.toList ++ [')']) := by
    simp [String.toList_append]
  have lower : (lowercase ("ENUM(" ++ listed ++ ")")).toList =
      ("ENUM(" ++ listed ++ ")").toList.map Char.toLower := String.toList_ofList
  have opens : "enum(".toList.isPrefixOf (lowercase ("ENUM(" ++ listed ++ ")")).toList = true := by
    rw [lower, letters, List.map_append]
    rfl
  have closes : (("ENUM(" ++ listed ++ ")").toList.getLast? == some ')') = true := by
    rw [letters, ← List.append_assoc, List.getLast?_concat]
    rfl
  have inner : (("ENUM(" ++ listed ++ ")").toList.drop 5).dropLast = listed.toList := by
    rw [letters]
    exact List.dropLast_concat
  rw [inlineEnum?, opens, closes, Bool.and_self, if_pos rfl]
  simp only [inner]
  rfl

/-- What is read out of an inline type can be held by one. -/
theorem inlined_of_inlineEnum? {native : String} {values : List String}
    (read : inlineEnum? native = some values) : ∀ value ∈ values, Inlined value := by
  rw [inlineEnum?] at read
  split at read
  · obtain rfl := Option.some.inj read
    intro value member
    obtain ⟨piece, cut, rfl⟩ := List.mem_map.1 member
    exact inlined_inlineValue (Text.mem_split cut)
  · exact absurd read (by simp)

/-- Values that an inline list can hold are found again. -/
theorem inlineEnum?_of_inlined {first : String} {rest : List String}
    (inlined : ∀ value ∈ first :: rest, Inlined value) :
    inlineEnum? ("ENUM(" ++ Text.join ", " ((first :: rest).map literal) ++ ")") =
      some (first :: rest) := by
  have whole {value : String} (inlined : Inlined value) : ',' ∉ quoted value := by
    intro comma
    have inside : ',' ∈ Text.double '\'' value.toList := by simpa [quoted, Text.enclose] using comma
    exact inlined.whole (Text.mem_of_mem_double inside)
  obtain ⟨here, there⟩ := List.forall_mem_cons.1 inlined
  -- the pieces are the literals, all but the first behind a blank
  have pieces : Text.split ',' (Text.join ", " ((first :: rest).map literal)).toList =
      quoted first :: rest.map fun value => ' ' :: quoted value := by
    have listed : (Text.join ", " ((first :: rest).map literal)).toList =
        [','].intercalate (quoted first :: rest.map fun value => ' ' :: quoted value) := by
      rw [toList_join_literals, Text.intercalate_cons, List.flatMap_map]
    rw [listed]
    refine Text.split_intercalate (List.cons_ne_nil _ _)
      (List.forall_mem_cons.2 ⟨whole here, fun piece member => ?_⟩)
    obtain ⟨value, inside, rfl⟩ := List.mem_map.1 member
    simpa using whole (there value inside)
  have others : rest.map (inlineValue ∘ fun value => ' ' :: quoted value) = rest := by
    refine (List.map_congr_left fun value member => ?_).trans (List.map_id rest)
    rw [Function.comp_apply, inlineValue, Text.trim_blank]
    exact inlineValue_quoted (there value member)
  rw [inlineEnum?_written, pieces, List.map_cons, List.map_map, others, inlineValue_quoted here]

/-! ### Described columns -/

/-- A column with values accepts these texts and nothing else but null. -/
theorem exists_checkValue_enum {c : Column} {values : List String} (enum : c.type = .enum)
    (declared : c.enumValues = some values) {v : Json} (filled : v.isNull = false) :
    (∃ r, checkValue c v = .ok r) ↔ ∃ value ∈ values, v = .string value := by
  cases v with
  | null => exact absurd filled (by simp [Json.isNull])
  | string s =>
      by_cases listed : s ∈ values <;>
        simp [checkValue, Json.isNull, Json.asString?, enum, declared, listed]
  | bool b => simp [checkValue, Json.isNull, Json.asString?, enum]
  | number n => simp [checkValue, Json.isNull, Json.asString?, enum]
  | array items => simp [checkValue, Json.isNull, Json.asString?, enum]
  | object entries => simp [checkValue, Json.isNull, Json.asString?, enum]

/-- An inline list always reads as some values, and as the ones that were written exactly if it can hold
them. -/
theorem exists_inlineEnum? {values : List String} (filled : values ≠ []) :
    ∃ read, inlineEnum? ("ENUM(" ++ Text.join ", " (values.map literal) ++ ")") = some read ∧
      (read = values ↔ ∀ value ∈ values, Inlined value) := by
  obtain ⟨first, rest, rfl⟩ := List.exists_cons_of_ne_nil filled
  have found := inlineEnum?_written (Text.join ", " ((first :: rest).map literal))
  refine ⟨_, found, fun kept => ?_, fun inlined => ?_⟩
  · rw [kept] at found
    exact inlined_of_inlineEnum? found
  · rw [inlineEnum?_of_inlined inlined] at found
    exact (Option.some.inj found).symm

/-- The type that an enum column is created with. -/
theorem nativeType_enum {c : Column} {values : List String} (enum : c.type = .enum)
    (declared : c.enumValues = some values) (filled : values ≠ []) (table : String) :
    Dialect.mysql.nativeType table c =
      .ok ("ENUM(" ++ Text.join ", " (values.map literal) ++ ")") := by
  have literals : enumLiterals c = .ok (Text.join ", " (values.map literal)) := by
    simp [enumLiterals, declared, filled]
  simp only [Dialect.nativeType, enum, literals]
  rfl

/-- A column that is described by an inline type is an enum of the values that are read out of it. -/
theorem columnOfRow_inline {row : Record} {described : Column} {values : List String}
    (inline : inlineEnum? (rowText row "Type") = some values) (unlisted : rowText row "Enum" = "")
    (read : Dialect.mysql.columnOfRow row = .ok described) :
    described.type = .enum ∧ described.enumValues = some values := by
  simp only [Dialect.columnOfRow, unlisted, if_true, inline] at read
  split at read
  · exact absurd read (by simp)
  · obtain rfl := Except.ok.inj read
    exact ⟨rfl, rfl⟩

/-- **An enum column is described with its values exactly if an inline list can hold them all.**  The type
that the column is created with always reads as an inline type with some values.  These are the values of
the column, and the column that the catalog describes by this type accepts the same values, exactly if no
value has a comma or a quote at its ends. -/
theorem enum_kept_iff {c : Column} {values : List String} (enum : c.type = .enum)
    (declared : c.enumValues = some values) (filled : values ≠ []) (table : String) :
    ∃ native read, Dialect.mysql.nativeType table c = .ok native ∧ inlineEnum? native = some read ∧
      (read = values ↔ ∀ value ∈ values, Inlined value) ∧
      ∀ row described, rowText row "Type" = native → rowText row "Enum" = "" →
        Dialect.mysql.columnOfRow row = .ok described →
        ((∀ v, v.isNull = false → ((∃ r, checkValue described v = .ok r) ↔
            ∃ r, checkValue c v = .ok r)) ↔ ∀ value ∈ values, Inlined value) := by
  obtain ⟨found, inline, same⟩ := exists_inlineEnum? filled
  refine ⟨_, found, nativeType_enum enum declared filled table, inline, same,
    fun row described type unlisted read => ?_⟩
  obtain ⟨kind, listed⟩ := columnOfRow_inline (type ▸ inline) unlisted read
  constructor
  · intro alike value member
    -- what the column declares is accepted, so it was found, and whatever was found can be held
    have declares : ∃ r, checkValue c (.string value) = .ok r :=
      (exists_checkValue_enum enum declared rfl).2 ⟨value, member, rfl⟩
    obtain ⟨other, there, eq⟩ :=
      (exists_checkValue_enum kind listed rfl).1 ((alike (.string value) rfl).2 declares)
    obtain rfl := Json.string.inj eq
    exact inlined_of_inlineEnum? inline value there
  · intro inlined v filled
    rw [same.2 inlined] at listed
    rw [exists_checkValue_enum kind listed filled, exists_checkValue_enum enum declared filled]

/-- A column for one of some moods. -/
def moodColumn (values : List String) : Column :=
  { Column.plain "mood" .enum with enumValues := some values }

/-- What the catalog says of a column with an inline type. -/
def catalogRow (field native : String) : Record :=
  [("Field", .string field), ("Type", .string native), ("Null", .string "YES"), ("Default", .null),
    ("Key", .string ""), ("Extra", .string ""), ("Length", .null), ("Enum", .null)]

/-- Blanks, quotes within and nothing at all are kept. -/
theorem enum_kept_moods : ∃ native described,
    Dialect.mysql.nativeType "people" (moodColumn ["very sad", "o'er the moon", ""]) = .ok native ∧
      inlineEnum? native = some ["very sad", "o'er the moon", ""] ∧
      Dialect.mysql.columnOfRow (catalogRow "mood" native) = .ok described ∧
      ∀ v, v.isNull = false → ((∃ r, checkValue described v = .ok r) ↔
        ∃ r, checkValue (moodColumn ["very sad", "o'er the moon", ""]) v = .ok r) := by
  obtain ⟨native, read, written, found, same, accepts⟩ :=
    @enum_kept_iff (moodColumn ["very sad", "o'er the moon", ""]) _ rfl rfl (by simp) "people"
  have inlined : ∀ value ∈ ["very sad", "o'er the moon", ""], Inlined value := by decide
  refine ⟨native, _, written, by rw [found, same.2 inlined], rfl, ?_⟩
  exact (accepts (catalogRow "mood" native) _ rfl rfl rfl).2 inlined

/-- A comma cuts a value in two, and a quote at an end is lost. -/
theorem enum_lost_moods :
    Dialect.mysql.nativeType "people" (moodColumn ["b,c", "o'"]) = .ok "ENUM('b,c', 'o''')" ∧
      inlineEnum? "ENUM('b,c', 'o''')" = some ["b", "c", "o"] ∧
      inlineEnum? "ENUM('b,c', 'o''')" ≠ some ["b,c", "o'"] ∧
      ∃ described,
        Dialect.mysql.columnOfRow (catalogRow "mood" "ENUM('b,c', 'o''')") = .ok described ∧
        checkValue (moodColumn ["b,c", "o'"]) (.string "b,c") = .ok (.string "b,c") ∧
        checkValue described (.string "b,c") = .error (.notListed "mood" ["b", "c", "o"]) := by
  exact ⟨by decide +kernel, by decide +kernel, by decide +kernel, _, rfl, rfl,
    Outcome.failsWith_iff.1 (by decide +kernel)⟩

end DataAccess
