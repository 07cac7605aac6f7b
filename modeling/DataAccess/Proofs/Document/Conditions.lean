import DataAccess.Proofs.Calendar.Chronology
import DataAccess.Proofs.Query.Searching
import DataAccess.Proofs.Schema.ReadBack
/-
**What the filters of conditions mean.**  A filter is a document whose shape tells field names,
operators and operands apart.  The filter of a condition always puts the value where an operand
stands, so that a value is only ever compared, whatever its own shape: an object with a key `$gt` is
equal to a stored object or it is not.  Dates are compared in their native form, and so in the order
of their instants.

Main definitions:

* `Json.Kind`, `Json.kind` — the six kinds of values;
* `Json.LooselyEquals`, `Json.StandsTo` — what a stored value and an operand are compared for;
* `Operator.Holds` — what a condition says of its field.

Main results:

* `Json.compare?_of_kinds` — values of different kinds have no order;
* `Filter.admits_asked` — what is asked of a field is what the condition says of it;
* `Filter.accepts_conditions` — **the filter of several conditions accepts the documents for which all
  of them hold, in whatever order they are listed**;
* `Filter.accepts_dates` — **filters of dates are chronological**, except on a field whose name has a
  meaning of its own.
-/

set_option autoImplicit false

namespace DataAccess

/-! ### Comparing values -/

namespace Json

/-- The kinds of values. -/
inductive Kind
  | null
  | bool
  | number
  | string
  | array
  | object
deriving DecidableEq, Repr

/-- The kind of a value. -/
def kind : Json → Kind
  | .null => .null
  | .bool _ => .bool
  | .number _ => .number
  | .string _ => .string
  | .array _ => .array
  | .object _ => .object

/-- Values of different kinds have no order. -/
theorem compare?_of_kinds {a b : Json} (apart : a.kind ≠ b.kind) : a.compare? b = none := by
  cases a <;> cases b <;> first | rfl | exact absurd rfl apart

/-- Two values are both null, or the first one is not and compares equal to the second or is the same. -/
def LooselyEquals (x w : Json) : Prop :=
  x = .null ∧ w = .null ∨ x ≠ .null ∧ (x.compare? w = some .eq ∨ x.same w = true)

/-- A value that is present stands to an operand in one of several orders. -/
def StandsTo (stored : Option Json) (orders : List Ordering) (w : Json) : Prop :=
  ∃ x, stored = some x ∧ ∃ order ∈ orders, x.compare? w = some order

end Json

namespace Filter

theorem equal_iff {stored : Option Json} {w : Json} :
    equal stored w = true ↔ (stored.getD .null).LooselyEquals w := by
  cases stored with
  | none => simp [equal, Json.LooselyEquals, Json.isNull_iff]
  | some x =>
      cases x with
      | null => simp [equal, Json.LooselyEquals, Json.isNull_iff]
      | _ => simp [equal, Json.LooselyEquals]

theorem compare?_eq_some_iff {stored : Option Json} {w : Json} {order : Ordering} :
    compare? stored w = some order ↔ Json.StandsTo stored [order] w := by
  simp [compare?, Json.StandsTo, Option.bind_eq_some_iff]

theorem compare?_eq_either_iff {stored : Option Json} {w : Json} {order order' : Ordering} :
    (compare? stored w == some order || compare? stored w == some order') = true ↔
      Json.StandsTo stored [order, order'] w := by
  rw [Bool.or_eq_true, beq_iff_eq, beq_iff_eq]
  cases stored <;> simp [compare?, Json.StandsTo]

end Filter

/-! ### Conditions -/

/-- What a condition says of its field, where the operand is compared in the form in which values of
the column are stored. -/
def Operator.Holds (type : ColumnType) (stored : Option Json) (v : Json) : Operator → Prop
  | .equals => (stored.getD .null).LooselyEquals (coerceWrite type v .native)
  | .notEquals => ¬ (stored.getD .null).LooselyEquals (coerceWrite type v .native)
  | .isIn => ∃ w ∈ listValues v, (stored.getD .null).LooselyEquals (coerceWrite type w .native)
  | .notIn => ¬ ∃ w ∈ listValues v, (stored.getD .null).LooselyEquals (coerceWrite type w .native)
  | .null => stored.getD .null = .null
  | .notNull => stored.getD .null ≠ .null
  | .gt => Json.StandsTo stored [.gt] (coerceWrite type v .native)
  | .gte => Json.StandsTo stored [.gt, .eq] (coerceWrite type v .native)
  | .lt => Json.StandsTo stored [.lt] (coerceWrite type v .native)
  | .lte => Json.StandsTo stored [.lt, .eq] (coerceWrite type v .native)
  | .search => ∃ text, stored = some (.string text) ∧ Text.Holds v.bareText text

namespace Filter

/-- Some operand of a list equals the stored value. -/
theorem any_equal_iff {type : ColumnType} {stored : Option Json} {operands : List Json} :
    (operands.map (coerceWrite type · .native)).any (equal stored) = true ↔
      ∃ w ∈ operands, (stored.getD .null).LooselyEquals (coerceWrite type w .native) := by
  simp only [List.any_map, List.any_eq_true, Function.comp_apply, equal_iff]

theorem equal_null_iff {stored : Option Json} :
    equal stored .null = true ↔ stored.getD .null = .null := by
  rw [equal_null]
  cases stored <;> simp

/-- What is asked of a field is what the condition says of it. -/
theorem admits_asked (type : ColumnType) (operator : Operator) (v : Json) (stored : Option Json) :
    admits stored (asked type operator v) = true ↔ operator.Holds type stored v := by
  cases operator with
  | equals =>
      rw [asked, admits_equal, equal_iff]
      rfl
  | notEquals =>
      rw [asked, admits_unequal, Bool.not_eq_true', ← Bool.not_eq_true, equal_iff]
      rfl
  | isIn =>
      rw [asked, admits_listed, any_equal_iff]
      rfl
  | notIn =>
      have unlisted : admits stored (asked type .notIn v) =
          !((listValues v).map (coerceWrite type · .native)).any (equal stored) :=
        admits_operator (by decide) stored _
      rw [unlisted, Bool.not_eq_true', ← Bool.not_eq_true, any_equal_iff]
      rfl
  | null =>
      rw [asked, admits_equal, equal_null_iff]
      rfl
  | notNull =>
      rw [asked, admits_unequal, Bool.not_eq_true', ← Bool.not_eq_true, equal_null_iff]
      rfl
  | gt | lt =>
      rw [asked, admits_operator (by decide), meets, beq_iff_eq, compare?_eq_some_iff]
      rfl
  | gte | lte =>
      rw [asked, admits_operator (by decide), meets, compare?_eq_either_iff]
      rfl
  | search => exact admits_search type v stored

/-- The filter of a condition accepts the documents for which the condition holds. -/
theorem accepts_ofCondition {field : String} (plain : field ≠ "$and" ∧ field ≠ "$or")
    (type : ColumnType) (operator : Operator) (v : Json) (doc : Record) :
    accepts doc (ofCondition field type operator v) = true ↔
      operator.Holds type (doc.get? field) v := by
  rw [ofCondition, accepts_clause plain, admits_asked]

/-- **The filter of several conditions means what they say.**  It accepts a document exactly if each
condition holds for what is stored in its field, in whatever order the conditions are listed; and values
of different kinds never compare. -/
theorem accepts_conditions {conditions : List (ColumnType × WhereCondition)}
    (plain : ∀ c ∈ conditions, c.2.column ≠ "$and" ∧ c.2.column ≠ "$or") (doc : Record) :
    (∀ listed : List (ColumnType × WhereCondition), listed.Perm conditions →
      (accepts doc (all (listed.map fun (type, c) =>
          ofCondition c.column type c.operator c.value)) = true ↔
        ∀ c ∈ conditions, c.2.operator.Holds c.1 (doc.get? c.2.column) c.2.value)) ∧
      ∀ a b : Json, a.kind ≠ b.kind → a.compare? b = none := by
  refine ⟨?_, fun _ _ => Json.compare?_of_kinds⟩
  intro listed rearranged
  rw [accepts_all, List.all_map, List.all_eq_true]
  -- the order of the list is no matter to what holds of each of its members
  constructor
  · intro accepted c member
    exact (accepts_ofCondition (plain c member) c.1 c.2.operator c.2.value doc).1
      (accepted c (rearranged.mem_iff.2 member))
  · intro holds c member
    have member := rearranged.mem_iff.1 member
    exact (accepts_ofCondition (plain c member) c.1 c.2.operator c.2.value doc).2 (holds c member)

/-- A document that stores an object with a key like an operator is found by that object. -/
theorem accepts_conditions_dollar :
    accepts [("meta", .object [("$gt", .bool true)]), ("age", .number (.integer 30))]
        (all [ofCondition "age" .number .isIn (.string "x, 30"),
          ofCondition "meta" .json .equals (.object [("$gt", .bool true)])]) = true := by
  have found := (@accepts_conditions [(.json, ⟨"meta", .equals, .object [("$gt", .bool true)]⟩),
    (.number, ⟨"age", .isIn, .string "x, 30"⟩)] (by decide)
    [("meta", .object [("$gt", .bool true)]), ("age", .number (.integer 30))]).1
  refine (found _ (.swap _ _ [])).2 (List.forall_mem_cons.2 ⟨?_, List.forall_mem_singleton.2 ?_⟩)
  · exact .inr ⟨by simp [Keyed.get?], .inr (by decide +kernel)⟩
  · have elements : listValues (.string "x, 30") = [.string "x", .string "30"] := rfl
    refine ⟨.string "30", elements ▸ by simp, ?_⟩
    exact .inr ⟨by simp [Keyed.get?], .inr (by decide +kernel)⟩

/-! ### Dates -/

section Dates

variable {a b : Json} {t u : Timestamp} (read : parseTimestamp a = some t)
  (read' : parseTimestamp b = some u) (ordinary : t.Ordinary) (ordinary' : u.Ordinary)
  (booleans : BooleanStorage)

include read read' ordinary ordinary'

/-- Dates that are written compare as the whole seconds of their instants. -/
theorem compare?_dates :
    (coerceWrite .date a booleans).compare? (coerceWrite .date b .native) =
      some (compare t.seconds u.seconds) := by
  rw [coerceWrite_date booleans read, coerceWrite_date .native read', Json.compare?,
    Timestamp.compare_native ordinary ordinary']

theorem standsTo_dates {orders : List Ordering} :
    Json.StandsTo (some (coerceWrite .date a booleans)) orders (coerceWrite .date b .native) ↔
      compare t.seconds u.seconds ∈ orders := by
  simp [Json.StandsTo, compare?_dates read read' ordinary ordinary']

theorem looselyEquals_dates :
    (coerceWrite .date a booleans).LooselyEquals (coerceWrite .date b .native) ↔
      t.seconds = u.seconds := by
  have order := compare?_dates read read' ordinary ordinary' booleans
  rw [coerceWrite_date booleans read, coerceWrite_date .native read'] at order ⊢
  constructor
  · rintro (⟨null, -⟩ | ⟨-, equal | same⟩)
    · exact absurd null (by simp)
    · exact Int.compare_eq_eq.1 (Option.some.inj (order.symm.trans equal))
    · rw [same_text same, Json.compare?] at order
      exact Int.compare_eq_eq.1 (by simpa [compareOfLessAndEq] using order.symm)
  · intro same
    exact .inr ⟨by simp, .inl (order.trans (congrArg some (Int.compare_eq_eq.2 same)))⟩

end Dates

/-- A field whose name combines filters is not asked for what an operator says. -/
theorem accepts_logical {field : String} (logical : field = "$and" ∨ field = "$or")
    (type : ColumnType) (operator : Operator) (v : Json) (doc : Record) :
    accepts doc (ofCondition field type operator v) = false := by
  rcases logical with rfl | rfl <;>
    cases operator <;> simp [ofCondition, asked, accepts, acceptsClauses, acceptsEvery, acceptsSome]

/-- **Filters of dates are chronological.**  In whatever notations a stored date and the date of a
condition were given, the filter of the condition accepts the document exactly if their instants, to
the second, are ordered as the operator says.  A field whose name combines filters is never asked. -/
theorem accepts_dates {field : String} {a b : Json} {t u : Timestamp} {booleans : BooleanStorage}
    {doc : Record} (read : parseTimestamp a = some t) (read' : parseTimestamp b = some u)
    (ordinary : t.Ordinary) (ordinary' : u.Ordinary)
    (stored : doc.get? field = some (coerceWrite .date a booleans)) :
    (field ≠ "$and" ∧ field ≠ "$or" →
      (accepts doc (ofCondition field .date .equals b) = true ↔ t.seconds = u.seconds) ∧
      (accepts doc (ofCondition field .date .gt b) = true ↔ t.seconds > u.seconds) ∧
      (accepts doc (ofCondition field .date .gte b) = true ↔ t.seconds ≥ u.seconds) ∧
      (accepts doc (ofCondition field .date .lt b) = true ↔ t.seconds < u.seconds) ∧
      (accepts doc (ofCondition field .date .lte b) = true ↔ t.seconds ≤ u.seconds)) ∧
    (field = "$and" ∨ field = "$or" → ∀ operator,
      accepts doc (ofCondition field .date operator b) = false) := by
  refine ⟨fun plain => ?_, fun logical operator => accepts_logical logical .date operator b doc⟩
  have ordered (operator : Operator) (orders : List Ordering)
      (stands : operator.Holds .date (some (coerceWrite .date a booleans)) b ↔
        Json.StandsTo (some (coerceWrite .date a booleans)) orders (coerceWrite .date b .native)) :
      accepts doc (ofCondition field .date operator b) = true ↔
        compare t.seconds u.seconds ∈ orders := by
    rw [accepts_ofCondition plain, stored, stands, standsTo_dates read read' ordinary ordinary']
  refine ⟨?_, ?_, ?_, ?_, ?_⟩
  · rw [accepts_ofCondition plain, stored]
    exact looselyEquals_dates read read' ordinary ordinary' booleans
  · rw [ordered .gt [.gt] Iff.rfl, List.mem_singleton, Int.compare_eq_gt]
  · rw [ordered .gte [.gt, .eq] Iff.rfl, List.mem_pair, Int.compare_eq_gt, Int.compare_eq_eq]
    omega
  · rw [ordered .lt [.lt] Iff.rfl, List.mem_singleton, Int.compare_eq_lt]
  · rw [ordered .lte [.lt, .eq] Iff.rfl, List.mem_pair, Int.compare_eq_lt, Int.compare_eq_eq]
    omega

/-- One hour into May two hours ahead is before May. -/
theorem accepts_dates_ahead :
    accepts [("at", coerceWrite .date (.string "2024-05-01T01:00:00+02:00") .native)]
      (ofCondition "at" .date .lt (.string "2024-05-01")) = true := by
  have read : parseTimestamp (.string "2024-05-01T01:00:00+02:00") = some ⟨1714518000, 0⟩ := by
    decide +kernel
  have read' : parseTimestamp (.string "2024-05-01") = some ⟨1714521600, 0⟩ := by decide +kernel
  have stored : Keyed.get? [("at", coerceWrite .date (.string "2024-05-01T01:00:00+02:00") .native)]
      "at" = some (coerceWrite .date (.string "2024-05-01T01:00:00+02:00") .native) := rfl
  obtain ⟨chronological, -⟩ :=
    accepts_dates read read' (by decide +kernel) (by decide +kernel) stored
  exact (chronological (by decide)).2.2.2.1.2 (by decide)

/-- A date in a field that is called like the combination of filters is not found by itself. -/
theorem accepts_dates_combined :
    parseTimestamp (.string "2024-05-01T12:30:45Z") = some ⟨1714566645, 0⟩ ∧
      Timestamp.Ordinary ⟨1714566645, 0⟩ ∧
      accepts [("$and", coerceWrite .date (.string "2024-05-01T12:30:45Z") .native)]
        (ofCondition "$and" .date .equals (.string "2024-05-01T12:30:45Z")) = false :=
  ⟨by decide +kernel, by decide +kernel, accepts_logical (.inl rfl) _ _ _ _⟩

end Filter

end DataAccess
