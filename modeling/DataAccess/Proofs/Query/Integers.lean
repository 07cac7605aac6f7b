import DataAccess.Document.Bson
import DataAccess.Proofs.Query.Markers
import DataAccess.Sql.Bound
import DataAccess.Sql.Statement
/-
**Integers on their way to a driver.**  A parameter brings an integer as a decimal text.  The text is
read as a signed word, or else as a binary64 number, and drivers are given signed words or binary64
numbers in turn.  Integers of the signed range keep their value all the way.  The ones above it are
JSON integers too, but are rounded, and two of them may become one number.

Main definitions:

* `Number.narrowed` — an integer as a signed word, or else the nearest binary64 number;
* `WhereCondition.Bracketed` — names that are read as a column with an operator.

Main results:

* `SignedDecimal.readInt?_toString` — a written integer reads back;
* `coerceNumber_toString` — the number that a written integer is read as;
* `WhereCondition.ofParam_eq_equals_iff` — which names stand for a column alone;
* `Schema.integers_kept_iff` — **parameters and drivers keep exactly the integers of signed words**;
* `Schema.integer_rounded` — a condition on `2^63 + 1` asks for `2^63`.
-/

set_option autoImplicit false

namespace DataAccess

/-! ### Written integers -/

/-- A written integer is its digits, after a sign if it is negative. -/
theorem toList_toString_int (n : Int) : (toString n).toList =
    if n < 0 then '-' :: Nat.toDigits 10 n.natAbs else Nat.toDigits 10 n.natAbs := by
  cases n with
  | ofNat m =>
      rw [if_neg (by simp)]
      simp [toString, Int.repr, Nat.repr]
  | negSucc m =>
      rw [if_pos (Int.negSucc_lt_zero m)]
      simp [toString, Int.repr, Nat.repr]

theorem all_isDigit_toDigits (m : Nat) : (Nat.toDigits 10 m).all Text.isDigit = true :=
  List.all_eq_true.2 fun _ => Text.isDigit_of_mem_toDigits

/-- A written integer has no blanks around it. -/
theorem trim_toString_int (n : Int) : Text.trim (toString n).toList = (toString n).toList := by
  rw [toList_toString_int]
  split
  · refine Text.trim_eq_self ?_ ?_
    · intro c first
      obtain rfl : '-' = c := by simpa using first
      decide
    · intro c last
      rw [List.getLast?_cons_of_ne_nil Nat.toDigits_ne_nil] at last
      exact Text.isBlank_of_isDigit (Text.isDigit_of_mem_toDigits (List.mem_of_getLast? last))
  · exact trim_toDigits _

namespace SignedDecimal

/-- Digits bear no sign. -/
theorem sign_toDigits (m : Nat) : sign (Nat.toDigits 10 m) = (false, Nat.toDigits 10 m) := by
  have digits : ∀ c ∈ Nat.toDigits 10 m, Text.isDigit c = true := fun _ =>
    Text.isDigit_of_mem_toDigits
  rw [sign.eq_def]
  split
  · next written => exact absurd (digits '-' (by simp [written])) (by decide)
  · next written => exact absurd (digits '+' (by simp [written])) (by decide)
  · rfl

/-- A written integer reads back. -/
theorem readInt?_toString (n : Int) : readInt? (toString n).toList = some n := by
  have digits := all_isDigit_toDigits n.natAbs
  have some : (Nat.toDigits 10 n.natAbs).isEmpty = false := by simp
  rw [toList_toString_int, readInt?]
  by_cases negative : n < 0
  · rw [if_pos negative]
    simp only [sign, some, digits, Text.decimalValue_toDigits, Bool.not_true, Bool.or_false,
      Bool.false_eq_true, if_false, if_true, Option.some.injEq]
    omega
  · rw [if_neg negative]
    simp only [sign_toDigits, some, digits, Text.decimalValue_toDigits, Bool.not_true, Bool.or_false,
      Bool.false_eq_true, if_false, Option.some.injEq]
    omega

/-- Digits alone are read as the decimal of their value. -/
theorem read?_toDigits (m : Nat) : read? (Nat.toDigits 10 m) = some ⟨false, ⟨m, 0⟩⟩ := by
  have digits : ∀ c ∈ Nat.toDigits 10 m, Text.isDigit c = true := fun _ =>
    Text.isDigit_of_mem_toDigits
  have unmarked : ∀ c ∈ Nat.toDigits 10 m, (c != 'e' && c != 'E') = true := by
    intro c member
    have digit := digits c member
    rw [Bool.and_eq_true, bne_iff_ne, bne_iff_ne]
    constructor <;> rintro rfl <;> exact absurd digit (by decide)
  have parts : readDigits? (Nat.toDigits 10 m) = some (Nat.toDigits 10 m, []) := by
    rw [readDigits?, List.dropWhile_eq_nil_iff.2 digits, List.takeWhile_eq_self_iff.2 digits]
    simp
  simp only [read?, sign_toDigits, List.takeWhile_eq_self_iff.2 unmarked,
    List.dropWhile_eq_nil_iff.2 unmarked, parts]
  simp [Text.decimalValue_toDigits]

end SignedDecimal

/-! ### Integers beyond a signed word -/

/-- An unsigned word that is no signed word is nearest to a finite number. -/
theorem roundMagnitude_unsigned {m : Nat} (large : 2 ^ 63 ≤ m) (fits : m < 2 ^ 64) :
    roundMagnitude m 1 < 2047 * 2 ^ 52 := by
  have size : m.log2 = 63 := (Nat.log2_eq_iff (by omega)).2 ⟨large, fits⟩
  have one : (1 : Nat).log2 = 0 := by decide
  have exponent : floorLog2 m 1 = 63 := by
    simp only [floorLog2, size, one]
    have up : (((63 : Nat) : Int) - ((0 : Nat) : Int)).toNat = 63 := by decide
    have down : (-(((63 : Nat) : Int) - ((0 : Nat) : Int))).toNat = 0 := by decide
    rw [up, down, if_neg (by omega)]
    rfl
  have positive : m ≠ 0 := by omega
  have unit : max ((63 : Int) - 52) (-1074) = 11 := by decide
  have near := @two_mul_roundHalfEven_le (m * 2 ^ 0) (1 * 2 ^ 11) (by decide)
  rw [roundMagnitude, if_neg positive, exponent]
  simp only [unit]
  have down : (-(11 : Int)).toNat = 0 := by decide
  have up : (11 : Int).toNat = 11 := by decide
  have shift : ((11 : Int) + 1074).toNat = 1085 := by decide
  rw [down, up, shift]
  omega

/-- Its digits are read as the number nearest to it. -/
theorem parseFloat?_toDigits {m : Nat} (large : 2 ^ 63 ≤ m) (fits : m < 2 ^ 64) :
    parseFloat? (Nat.toDigits 10 m) = some (Binary64.ofInt m) := by
  have finite := roundMagnitude_unsigned large fits
  have length : (Nat.toDigits 10 m).length ≤ 20 :=
    (Nat.length_toDigits_le_iff (by decide) (by decide)).2 (by omega)
  have nonzero : m ≠ 0 := by omega
  have positive : ¬ (m : Int) < 0 := by omega
  have nearest : Binary64.ofQuotient false m 1 = some ⟨false, roundMagnitude m 1, finite⟩ :=
    dif_pos finite
  have read : parseFloat? (Nat.toDigits 10 m) = Binary64.ofQuotient false m 1 := by
    rw [parseFloat?, SignedDecimal.read?_toDigits, Option.bind_some, SignedDecimal.toBinary64,
      Binary64.ofDecimal, if_neg nonzero]
    dsimp only
    rw [if_neg (by omega), if_neg (by omega)]
    simp
  rw [read, nearest, Binary64.ofInt, Int.natAbs_natCast, decide_eq_false positive, nearest]
  rfl

/-- An integer as a signed word, or else as the nearest binary64 number. -/
def Number.narrowed (n : Int) : Number :=
  if h : -2 ^ 63 ≤ n ∧ n < 2 ^ 63 then .integer n (by omega) else .float (Binary64.ofInt n)

/-- Exactly the signed words are kept as integers. -/
theorem Number.narrowed_eq_ofInt_iff {n : Int} (word : -2 ^ 63 ≤ n ∧ n < 2 ^ 64) :
    narrowed n = ofInt n ↔ n < 2 ^ 63 := by
  rw [ofInt_of_inRange word, narrowed]
  split
  · next signed => exact iff_of_true rfl signed.2
  · next unsigned => exact iff_of_false Number.noConfusion (by omega)

/-- The number that a written integer is read as. -/
theorem coerceNumber_toString {n : Int} (word : -2 ^ 63 ≤ n ∧ n < 2 ^ 64) :
    coerceNumber (.string (toString n)) = some (.number (.narrowed n)) := by
  simp only [coerceNumber, trim_toString_int, parseSigned?, SignedDecimal.readInt?_toString,
    Option.bind_some]
  by_cases signed : -2 ^ 63 ≤ n ∧ n < 2 ^ 63
  · rw [if_pos signed, Number.narrowed, dif_pos signed]
    simp only [Json.int, Number.ofInt_of_inRange word]
  · obtain ⟨m, rfl⟩ : ∃ m : Nat, n = m := ⟨n.toNat, by omega⟩
    have digits : (toString (m : Int)).toList = Nat.toDigits 10 m := by
      rw [toList_toString_int, if_neg (by omega), Int.natAbs_natCast]
    rw [if_neg signed, Number.narrowed, dif_neg signed, digits]
    simp only [parseFloat?_toDigits (m := m) (by omega) (by omega), Option.map_some]

/-- The kind that an integer is bound as. -/
theorem BoundValue.ofJson_word {n : Int} (word : -2 ^ 63 ≤ n ∧ n < 2 ^ 64) :
    ofJson (.int n) = if n < 2 ^ 63 then .integer n else .float (Binary64.ofInt n) := by
  split
  · next signed => exact ofJson_integer ⟨word.1, signed⟩
  · next unsigned =>
      have beyond : (Number.integer n word).asSigned? = none := if_neg unsigned
      simp only [ofJson, Json.int, Number.ofInt_of_inRange word, ofNumber, beyond,
        Number.toBinary64]

/-- The kind that it is sent as to a document database. -/
theorem Bson.ofJson_word {n : Int} (word : -2 ^ 63 ≤ n ∧ n < 2 ^ 64) :
    ofJson (.int n) =
      if n < 2 ^ 63 then .int64 n else .double (.finite (Binary64.ofInt n)) := by
  split
  · next signed => exact ofJson_integer ⟨word.1, signed⟩
  · next unsigned =>
      have beyond : (Number.integer n word).asSigned? = none := if_neg unsigned
      simp only [ofJson, Json.int, Number.ofInt_of_inRange word, ofNumber, beyond,
        Number.toBinary64]

/-! ### Parameters of numeric columns -/

namespace WhereCondition

/-- A name that is read as a column with an operator in brackets. -/
def Bracketed (name : String) : Prop :=
  ∃ column operator : String, name = column ++ "[" ++ operator ++ "]"

/-- The texts around the first opening bracket, if the name ends with a closing one. -/
theorem toList_bracketed {name : String} : Bracketed name ↔
    ∃ column operator : List Char, '[' ∉ column ∧
      name.toList = column ++ '[' :: (operator ++ [']']) := by
  constructor
  · rintro ⟨column, operator, rfl⟩
    have bracket : '[' ∈ column.toList ++ '[' :: operator.toList := by simp
    obtain ⟨before, after, split, free⟩ := List.eq_append_cons_of_mem bracket
    refine ⟨before, after, free, ?_⟩
    rw [← List.cons_append, ← List.append_assoc, ← split]
    simp
  · rintro ⟨column, operator, -, letters⟩
    refine ⟨String.ofList column, String.ofList operator, ?_⟩
    rw [← String.toList_inj, letters]
    simp

/-- A name with brackets stands for the column before them. -/
theorem ofParam_bracketed {name : String} {column operator : List Char} (free : '[' ∉ column)
    (letters : name.toList = column ++ '[' :: (operator ++ [']'])) (value : String) :
    ofParam name value =
      ⟨String.ofList column, .ofNameOrEquals (String.ofList operator), .string value⟩ := by
  have turned : name.toList.reverse = ']' :: (column ++ '[' :: operator).reverse := by
    simp [letters]
  simp only [ofParam, turned, List.reverse_reverse, Text.cut_append free]

/-- Any other name stands for itself. -/
theorem ofParam_plain {name : String} (plain : ¬ Bracketed name) (value : String) :
    ofParam name value = ⟨name, .equals, .string value⟩ := by
  rw [ofParam]
  cases turned : name.toList.reverse with
  | nil => rfl
  | cons c rest =>
      have letters : name.toList = rest.reverse ++ [c] := by
        rw [← List.reverse_reverse name.toList, turned, List.reverse_cons]
      by_cases closed : c = ']'
      · subst closed
        have free : '[' ∉ rest.reverse := by
          intro bracket
          obtain ⟨column, operator, split, free⟩ := List.eq_append_cons_of_mem bracket
          exact plain (toList_bracketed.2 ⟨column, operator, free, by simp [letters, split]⟩)
        have uncut : Text.cut '[' (String.ofList rest.reverse) = none := by
          rw [Text.cut, String.toList_ofList, List.span_eq_takeWhile_dropWhile,
            List.dropWhile_eq_nil_iff.2 (Text.passed_of_not_mem free)]
        simp only [uncut]
      · split
        · next found =>
            split at found
            · next same => exact absurd (List.cons.inj same).1 closed
            · exact absurd found (by simp)
        · rfl

/-- **A parameter asks for equality on the column of its name exactly if the name has no brackets.** -/
theorem ofParam_eq_equals_iff {name value : String} :
    ofParam name value = ⟨name, .equals, .string value⟩ ↔ ¬ Bracketed name := by
  constructor
  · intro whole bracketed
    obtain ⟨column, operator, free, letters⟩ := toList_bracketed.1 bracketed
    rw [ofParam_bracketed free letters, WhereCondition.mk.injEq] at whole
    have shorter := congrArg List.length (congrArg String.toList whole.1)
    rw [letters, String.toList_ofList] at shorter
    simp at shorter
  · exact fun plain => ofParam_plain plain value

end WhereCondition

namespace Schema

/-- A written integer is validated as the number that it is read as. -/
theorem validateCondition_integer {s : Schema} {name : String} {c : Column}
    (declared : s.column? name = some c) (numeric : c.type = .number)
    (plain : ¬ WhereCondition.Bracketed name) {n : Int} (word : -2 ^ 63 ≤ n ∧ n < 2 ^ 64) :
    s.validateCondition (.ofParam name (toString n)) =
      .ok ⟨name, .equals, .number (.narrowed n)⟩ := by
  have written : (toString n).toList.isEmpty = false := by
    rw [toList_toString_int]
    split <;> simp
  have checked : checkValue c (.string (toString n)) = .ok (.number (.narrowed n)) := by
    simp only [checkValue, Json.isNull, numeric, trim_toString_int, written,
      coerceNumber_toString word, Bool.false_eq_true, if_false, Option.elim_some]
  have has : s.hasColumn name = true := by simp [hasColumn, declared]
  rw [WhereCondition.ofParam_plain plain, validateCondition, if_pos has]
  simp only [checkOperand, validateValue, declared, checked, Except.mapError, Except.map]

/-- **Parameters and drivers keep exactly the integers of signed words.**  Take any integer that JSON
holds.  Its decimal text is validated and bound, on a numeric column, as the integer itself if it is a
signed word, and as the nearest binary64 number if not; and so do both kinds of driver send the JSON
integer. -/
theorem integers_kept_iff {n : Int} (word : -2 ^ 63 ≤ n ∧ n < 2 ^ 64) :
    (∀ (s : Schema) (name : String) (c : Column), s.column? name = some c → c.type = .number →
      ¬ WhereCondition.Bracketed name →
        s.validateCondition (.ofParam name (toString n)) =
            .ok ⟨name, .equals, .number (.narrowed n)⟩ ∧
          (∀ booleans, coerceWrite c.type (.number (.narrowed n)) booleans = .number (.narrowed n)) ∧
          ∀ d : Dialect, (Statement.condition (Statement.qualified s.table name) c.type
            ⟨name, .equals, .number (.narrowed n)⟩).params d = [.number (.narrowed n)]) ∧
      (∀ name value : String, WhereCondition.ofParam name value = ⟨name, .equals, .string value⟩ ↔
        ¬ WhereCondition.Bracketed name) ∧
      (Number.narrowed n = Number.ofInt n ↔ n < 2 ^ 63) ∧
      BoundValue.ofJson (.int n) =
        (if n < 2 ^ 63 then .integer n else .float (Binary64.ofInt n)) ∧
      Bson.ofJson (.int n) =
        (if n < 2 ^ 63 then .int64 n else .double (.finite (Binary64.ofInt n))) := by
  refine ⟨?_, fun _ _ => WhereCondition.ofParam_eq_equals_iff, Number.narrowed_eq_ofInt_iff word,
    BoundValue.ofJson_word word, Bson.ofJson_word word⟩
  intro s name c declared numeric plain
  refine ⟨validateCondition_integer declared numeric plain word, ?_, ?_⟩
  · intro booleans
    rw [numeric]
    rfl
  · intro d
    rw [numeric]
    rfl

/-- A table of counters. -/
def counters : Schema :=
  .ofColumns "counters" [.serverKey "id", .plain "hits" .number] []

theorem not_bracketed_hits : ¬ WhereCondition.Bracketed "hits" :=
  WhereCondition.ofParam_eq_equals_iff.1 (rfl : WhereCondition.ofParam "hits" "" = _)

/-- The greatest signed word is kept. -/
theorem integers_kept_greatest :
    -- the hypotheses
    ((-2 ^ 63 ≤ (2 ^ 63 - 1 : Int) ∧ (2 ^ 63 - 1 : Int) < 2 ^ 64) ∧
        (counters.column? "hits").map Column.type = some .number ∧
        ¬ WhereCondition.Bracketed "hits") ∧
      -- what follows
      counters.validateCondition (.ofParam "hits" "9223372036854775807") =
        .ok ⟨"hits", .equals, .int 9223372036854775807⟩ ∧
      BoundValue.ofJson (.int 9223372036854775807) = .integer 9223372036854775807 ∧
      Bson.ofJson (.int 9223372036854775807) = .int64 9223372036854775807 := by
  have word : -2 ^ 63 ≤ (2 ^ 63 - 1 : Int) ∧ (2 ^ 63 - 1 : Int) < 2 ^ 64 := by decide
  obtain ⟨read, -, -, bound, sent⟩ := integers_kept_iff word
  obtain ⟨validated, -, -⟩ :=
    read counters "hits" (.plain "hits" .number) rfl rfl not_bracketed_hits
  exact ⟨⟨word, rfl, not_bracketed_hits⟩, validated, bound, sent⟩

/-- A condition on `2^63 + 1` asks for `2^63`, as a binary64 number, and a driver is sent that number
for both integers. -/
theorem integer_rounded :
    counters.validateCondition (.ofParam "hits" "9223372036854775809") =
        .ok ⟨"hits", .equals, .number (.float (Binary64.ofInt 9223372036854775808))⟩ ∧
      counters.validateCondition (.ofParam "hits" "9223372036854775808") =
        .ok ⟨"hits", .equals, .number (.float (Binary64.ofInt 9223372036854775808))⟩ ∧
      (Statement.condition (Statement.qualified "counters" "hits") .number
          ⟨"hits", .equals, .number (.float (Binary64.ofInt 9223372036854775808))⟩).params .mysql ≠
        [.int 9223372036854775809] ∧
      BoundValue.ofJson (.int 9223372036854775809) =
        .float (Binary64.ofInt 9223372036854775808) ∧
      Bson.ofJson (.int 9223372036854775809) =
        .double (.finite (Binary64.ofInt 9223372036854775808)) := by
  have same : Binary64.ofInt 9223372036854775809 = Binary64.ofInt 9223372036854775808 := by
    decide +kernel
  have next := validateCondition_integer (s := counters) (c := .plain "hits" .number) rfl rfl
    not_bracketed_hits (n := 9223372036854775809) (by decide)
  have this := validateCondition_integer (s := counters) (c := .plain "hits" .number) rfl rfl
    not_bracketed_hits (n := 9223372036854775808) (by decide)
  refine ⟨?_, this, ?_, ?_, ?_⟩
  · rw [← same]
    exact next
  · intro kept
    exact absurd (Json.number.inj (List.cons.inj kept).1) Number.noConfusion
  · rw [← same]
    rfl
  · rw [← same]
    rfl

end Schema

end DataAccess
