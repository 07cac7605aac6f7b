import DataAccess.Calendar.Timestamp
/-
**Days and dates.**  A day number in the range of representable years belongs to exactly one valid
date, and counting the days of that date gives the number back.

Main results:

* `daysBeforeMonth_mono`, `daysBeforeYear_mono` — the counts grow with the months and the years;
* `Date.monthOfDay_eq` — the month of a day is the one between whose ends it lies;
* `Date.dayNumber_ofDayNumber` — **the date of a day number has this number**;
* `Date.isValid_ofDayNumber` — it is valid when its year can be represented;
* `Date.dayNumber_inRange` — the number of a valid date lies within the range.
-/

set_option autoImplicit false

namespace DataAccess

/-! ### The counts grow -/

theorem daysInMonth_le (year : Int) (month : Nat) : daysInMonth year month ≤ 31 := by
  unfold daysInMonth
  split
  · split <;> omega
  · omega
  · omega
  · omega
  · omega
  · omega

theorem daysBeforeMonth_succ (year : Int) {month : Nat} (h : 1 ≤ month) :
    daysBeforeMonth year (month + 1) = daysBeforeMonth year month + daysInMonth year month := by
  cases month with
  | zero => omega
  | succ m => rfl

theorem daysBeforeMonth_le_succ (year : Int) (month : Nat) :
    daysBeforeMonth year month ≤ daysBeforeMonth year (month + 1) := by
  cases month with
  | zero => exact Nat.le_refl 0
  | succ m =>
      rw [daysBeforeMonth_succ year (Nat.le_add_left 1 m)]
      exact Nat.le_add_right _ _

theorem daysBeforeMonth_mono (year : Int) {m n : Nat} (h : m ≤ n) :
    daysBeforeMonth year m ≤ daysBeforeMonth year n := by
  induction h with
  | refl => exact Nat.le_refl _
  | step _ ih => exact Nat.le_trans ih (daysBeforeMonth_le_succ year _)

/-- Twelve months make up the year. -/
theorem daysBeforeMonth_thirteen (year : Int) :
    daysBeforeMonth year 13 = if isLeap year then 366 else 365 := by
  cases h : isLeap year <;> simp [daysBeforeMonth, daysInMonth, h]

theorem daysBeforeYear_mono {y z : Int} (h : y ≤ z) : daysBeforeYear y ≤ daysBeforeYear z := by
  simp only [daysBeforeYear]
  omega

namespace Date

/-! ### Months -/

theorem length_filter_range (k n : Nat) :
    ((List.range n).filter fun m => decide (m < k)).length = min k n := by
  induction n with
  | zero => simp
  | succ n ih =>
      rw [List.range_succ, List.filter_append, List.length_append, ih]
      by_cases h : n < k
      · simp [h]
        omega
      · simp [h]
        omega

/-- The month of a day of a year is the one that begins on or before it and ends after it. -/
theorem monthOfDay_eq {year : Int} {month day : Nat} (most : month ≤ 12)
    (begun : daysBeforeMonth year month ≤ day) (ends : day < daysBeforeMonth year (month + 1)) :
    monthOfDay year day = month := by
  have earlier : ∀ m ∈ List.range 12,
      decide (daysBeforeMonth year (m + 1) ≤ day) = decide (m < month) := by
    intro m _
    rw [decide_eq_decide]
    constructor
    · intro h
      refine Nat.lt_of_not_le fun late => ?_
      have grown := daysBeforeMonth_mono year (Nat.add_le_add_right late 1)
      omega
    · intro h
      exact Nat.le_trans (daysBeforeMonth_mono year h) begun
  rw [monthOfDay, List.filter_congr earlier, length_filter_range]
  omega

/-- Every day of a year lies in one of its months. -/
theorem exists_month {year : Int} {day : Nat} (h : day < daysBeforeMonth year 13) :
    ∃ month, 1 ≤ month ∧ month ≤ 12 ∧ daysBeforeMonth year month ≤ day ∧
      day < daysBeforeMonth year (month + 1) := by
  have search (n : Nat) (hn : 1 ≤ n) (hday : day < daysBeforeMonth year (n + 1)) :
      ∃ month, 1 ≤ month ∧ month ≤ n ∧ daysBeforeMonth year month ≤ day ∧
        day < daysBeforeMonth year (month + 1) := by
    induction n with
    | zero => omega
    | succ n ih =>
        by_cases begun : daysBeforeMonth year (n + 1) ≤ day
        · exact ⟨n + 1, hn, Nat.le_refl _, begun, hday⟩
        · cases n with
          | zero => exact absurd (Nat.zero_le day) begun
          | succ n =>
              obtain ⟨month, first, last, found⟩ := ih (Nat.le_add_left 1 n) (Nat.lt_of_not_le begun)
              exact ⟨month, first, Nat.le_succ_of_le last, found⟩
  exact search 12 (by decide) h

/-! ### Dates of day numbers -/

/-- The parts of the date of a day number. -/
theorem ofDayNumber_spec (n : Int) :
    let d := ofDayNumber n
    d.year = yearOfDay n ∧ 1 ≤ d.month ∧ d.month ≤ 12 ∧ 1 ≤ d.day ∧
      d.day ≤ daysInMonth d.year d.month ∧ d.dayNumber = n := by
  have low := yearOfDay_le n
  have high := lt_yearOfDay_succ n
  have inYear : (n - daysBeforeYear (yearOfDay n)).toNat < daysBeforeMonth (yearOfDay n) 13 := by
    rw [daysBeforeYear_succ] at high
    rw [daysBeforeMonth_thirteen]
    split <;> rename_i leap <;> simp only [leap] at high <;> simp at high <;> omega
  obtain ⟨month, first, last, begun, ends⟩ := exists_month inYear
  have found : monthOfDay (yearOfDay n) (n - daysBeforeYear (yearOfDay n)).toNat = month :=
    monthOfDay_eq last begun ends
  rw [daysBeforeMonth_succ _ first] at ends
  have date : ofDayNumber n = ⟨yearOfDay n, month, (n - daysBeforeYear (yearOfDay n)).toNat -
      daysBeforeMonth (yearOfDay n) month + 1⟩ := by
    simp only [ofDayNumber, found]
  simp only [date, dayNumber]
  refine ⟨trivial, first, last, ?_, ?_, ?_⟩
  · omega
  · omega
  · omega

/-- The date of a day number has this number. -/
theorem dayNumber_ofDayNumber (n : Int) : (ofDayNumber n).dayNumber = n :=
  (ofDayNumber_spec n).2.2.2.2.2

/-- The date of a day number is valid when its year can be represented. -/
theorem isValid_ofDayNumber {n : Int} (least : daysBeforeYear leastYear ≤ n)
    (greatest : n < daysBeforeYear (greatestYear + 1)) : (ofDayNumber n).isValid = true := by
  obtain ⟨year, firstMonth, lastMonth, firstDay, lastDay, -⟩ := ofDayNumber_spec n
  have low := yearOfDay_le n
  have high := lt_yearOfDay_succ n
  have notBefore : leastYear ≤ yearOfDay n := by
    refine Int.not_lt.1 fun early => ?_
    have grown := daysBeforeYear_mono (Int.add_one_le_of_lt early)
    omega
  have notAfter : yearOfDay n ≤ greatestYear := by
    refine Int.not_lt.1 fun late => ?_
    have grown := daysBeforeYear_mono (Int.add_one_le_of_lt late)
    omega
  simp only [isValid, Bool.and_eq_true, decide_eq_true_eq]
  rw [year] at lastDay ⊢
  exact ⟨⟨⟨⟨⟨notBefore, notAfter⟩, firstMonth⟩, lastMonth⟩, firstDay⟩, lastDay⟩

/-- The number of a valid date lies between the first days of its year and of the next one. -/
theorem dayNumber_inYear {d : Date} (valid : d.isValid = true) :
    daysBeforeYear d.year ≤ d.dayNumber ∧ d.dayNumber < daysBeforeYear (d.year + 1) := by
  simp only [isValid, Bool.and_eq_true, decide_eq_true_eq] at valid
  obtain ⟨⟨⟨⟨⟨-, -⟩, firstMonth⟩, lastMonth⟩, firstDay⟩, lastDay⟩ := valid
  have grown := daysBeforeMonth_mono d.year (Nat.succ_le_succ lastMonth)
  rw [Nat.succ_eq_add_one, daysBeforeMonth_succ _ firstMonth, daysBeforeMonth_thirteen] at grown
  rw [daysBeforeYear_succ, dayNumber]
  constructor
  · omega
  · split at grown <;> rename_i leap <;> simp only [leap] <;> simp <;> omega

/-- The number of a valid date lies within the range. -/
theorem dayNumber_inRange {d : Date} (valid : d.isValid = true) :
    daysBeforeYear leastYear ≤ d.dayNumber ∧
      d.dayNumber < daysBeforeYear (greatestYear + 1) := by
  obtain ⟨low, high⟩ := dayNumber_inYear valid
  simp only [isValid, Bool.and_eq_true, decide_eq_true_eq] at valid
  obtain ⟨⟨⟨⟨⟨least, greatest⟩, -⟩, -⟩, -⟩, -⟩ := valid
  have first := daysBeforeYear_mono least
  have last := daysBeforeYear_mono (Int.add_le_add_right greatest 1)
  omega

end Date

end DataAccess
