import Mathlib.Data.String.Basic
import DataAccess.Proofs.Calendar.NativeForm
/-
**Instants in order.**  Backends that store dates as texts compare them as texts.  The native form
writes year, month, day, hour, minute and second one after the other, each with a fixed number of
digits; so the texts of two instants are ordered as the instants are, as long as both years have four
digits and no leap second is in play.

Main definitions:

* `Date.Before` — the order of dates by year, month and day;
* `Timestamp.Ordinary` — a year of four digits, and no leap second.

Main results:

* `Date.before_ofDayNumber` — later days have later dates;
* `Timestamp.padded_append_lt` — fields of a fixed width are compared before what follows them;
* `Timestamp.native_lt` — **an earlier instant has a lesser native form**;
* `Timestamp.compare_native` — native forms compare as the whole seconds of their instants.
-/

set_option autoImplicit false

namespace DataAccess

open Text

/-! ### Dates in order -/

namespace Date

/-- The first of two dates in the calendar. -/
def Before (d e : Date) : Prop :=
  d.year < e.year ∨ d.year = e.year ∧
    (d.month < e.month ∨ d.month = e.month ∧ d.day < e.day)

/-- Later days have later dates. -/
theorem before_ofDayNumber {m n : Int} (less : m < n) :
    (ofDayNumber m).Before (ofDayNumber n) := by
  obtain ⟨year, first, -, -, last, number⟩ := ofDayNumber_spec m
  obtain ⟨year', first', -, -, last', number'⟩ := ofDayNumber_spec n
  generalize ofDayNumber m = d at *
  generalize ofDayNumber n = e at *
  rw [dayNumber] at number number'
  rcases Int.lt_trichotomy d.year e.year with before | same | after
  · exact .inl before
  · refine .inr ⟨same, ?_⟩
    rw [same] at number last
    rcases Nat.lt_trichotomy d.month e.month with before | same | after
    · exact .inl before
    · rw [same] at number
      exact .inr ⟨same, by omega⟩
    · -- the month of the later day would be over before the earlier day
      have ended := daysBeforeMonth_mono e.year (Nat.succ_le_of_lt after)
      rw [Nat.succ_eq_add_one, daysBeforeMonth_succ _ first'] at ended
      omega
  · -- the year of the later day would be over before the earlier day
    have ended := daysBeforeYear_mono (Int.add_one_le_of_lt after)
    have within := yearOfDay_le m
    have within' := lt_yearOfDay_succ n
    rw [← year] at within
    rw [← year'] at within'
    omega

end Date

namespace Timestamp

/-! ### Fields of a fixed width -/

/-- Two numbers of one width are compared before what follows them. -/
theorem padded_append_lt {width m n : Nat} (pos : 0 < width) (small : m < 10 ^ width)
    (small' : n < 10 ^ width) {s t : List Char} (before : m < n ∨ m = n ∧ s < t) :
    padded width m ++ s < padded width n ++ t := by
  rcases before with less | ⟨rfl, less⟩
  · have lengths : (padded width m).length = (padded width n).length := by
      rw [length_padded pos small, length_padded pos small']
    refine append_lt_append lengths ?_ s t
    refine lt_of_decimalValue_lt (fun _ => isDigit_of_mem_padded) (fun _ => isDigit_of_mem_padded)
      lengths ?_
    rwa [decimalValue_padded, decimalValue_padded]
  · exact List.append_left_lt less

/-- A mark between a number and what follows it makes no difference. -/
theorem padded_mark_lt {width m n : Nat} (pos : 0 < width) (small : m < 10 ^ width)
    (small' : n < 10 ^ width) (mark : Char) {s t : List Char} (before : m < n ∨ m = n ∧ s < t) :
    padded width m ++ mark :: s < padded width n ++ mark :: t :=
  padded_append_lt pos small small' (before.imp_right fun ⟨same, less⟩ =>
    ⟨same, List.cons_lt_cons_self.2 less⟩)

/-! ### Native forms in order -/

/-- An instant whose year has four digits, and which is no leap second. -/
structure Ordinary (t : Timestamp) : Prop where
  year : 0 ≤ t.date.year ∧ t.date.year ≤ 9999
  nanos_lt : t.nanos < 1000000000

instance (t : Timestamp) : Decidable t.Ordinary :=
  decidable_of_iff ((0 ≤ t.date.year ∧ t.date.year ≤ 9999) ∧ t.nanos < 1000000000)
    ⟨fun h => ⟨h.1, h.2⟩, fun h => ⟨h.year, h.nanos_lt⟩⟩

variable {t u : Timestamp}

/-- The time of day is written in six digits. -/
theorem Ordinary.timeText_eq (ordinary : t.Ordinary) :
    timeText t = padded 2 (t.secondOfDay / 3600) ++ ':' ::
      (padded 2 (t.secondOfDay / 60 % 60) ++ ':' :: (padded 2 (t.secondOfDay % 60) ++ [])) := by
  have noLeap : ¬ 1000000000 ≤ t.nanos := Nat.not_le.2 ordinary.nanos_lt
  simp [timeText, noLeap]

/-- The date is written in eight digits. -/
theorem Ordinary.dateText_append (ordinary : t.Ordinary) (s : List Char) :
    dateText t.date ++ s = padded 4 t.date.year.toNat ++ '-' ::
      (padded 2 t.date.month ++ '-' :: (padded 2 t.date.day ++ s)) := by
  simp [dateText, yearText, ordinary.year]

/-- A lesser time of day is written as a lesser text. -/
theorem timeText_lt (ordinary : t.Ordinary) (ordinary' : u.Ordinary)
    (less : t.secondOfDay < u.secondOfDay) : timeText t < timeText u := by
  have inDay := t.secondOfDay_lt
  have inDay' := u.secondOfDay_lt
  rw [ordinary.timeText_eq, ordinary'.timeText_eq]
  refine padded_mark_lt (by decide) (by omega) (by omega) ':' ?_
  rcases Nat.lt_or_ge (t.secondOfDay / 3600) (u.secondOfDay / 3600) with hour | hour
  · exact .inl hour
  · refine .inr ⟨by omega, padded_mark_lt (by decide) (by omega) (by omega) ':' ?_⟩
    rcases Nat.lt_or_ge (t.secondOfDay / 60 % 60) (u.secondOfDay / 60 % 60) with minute | minute
    · exact .inl minute
    · exact .inr ⟨by omega, padded_append_lt (by decide) (by omega) (by omega) (.inl (by omega))⟩

/-- An earlier date is written as a lesser text, and equal dates leave it to what follows them. -/
theorem dateText_append_lt (ordinary : t.Ordinary) (ordinary' : u.Ordinary) {s s' : List Char}
    (before : t.date.Before u.date ∨ t.date = u.date ∧ s < s') :
    dateText t.date ++ s < dateText u.date ++ s' := by
  obtain ⟨month, day⟩ := t.date_bounds
  obtain ⟨month', day'⟩ := u.date_bounds
  obtain ⟨low, high⟩ := ordinary.year
  obtain ⟨low', high'⟩ := ordinary'.year
  rcases before with before | ⟨same, less⟩
  · rw [ordinary.dateText_append, ordinary'.dateText_append]
    refine padded_mark_lt (by decide) (by omega) (by omega) '-' ?_
    rcases before with earlier | ⟨same, before⟩
    · exact .inl (by omega)
    · refine .inr ⟨by omega, padded_mark_lt (by decide) month month' '-' ?_⟩
      rcases before with earlier | ⟨same, earlier⟩
      · exact .inl earlier
      · exact .inr ⟨same, padded_append_lt (by decide) day day' (.inl earlier)⟩
  · rw [same]
    exact List.append_left_lt less

/-- **An earlier instant has a lesser native form.** -/
theorem native_lt (ordinary : t.Ordinary) (ordinary' : u.Ordinary)
    (less : t.seconds < u.seconds) : t.native < u.native := by
  rw [String.lt_iff_toList_lt, native, native, String.toList_ofList, String.toList_ofList]
  refine dateText_append_lt ordinary ordinary' ?_
  by_cases day : t.dayNumber < u.dayNumber
  · exact .inl (Date.before_ofDayNumber day)
  · -- on one day the time of day decides
    have split := t.split_seconds
    have split' := u.split_seconds
    have inDay := t.secondOfDay_lt
    have inDay' := u.secondOfDay_lt
    have same : t.dayNumber = u.dayNumber := by omega
    refine .inr ⟨congrArg Date.ofDayNumber same, List.cons_lt_cons_self.2 ?_⟩
    exact timeText_lt ordinary ordinary' (by omega)

/-- Instants in the same second have the same native form. -/
theorem native_eq (ordinary : t.Ordinary) (ordinary' : u.Ordinary)
    (same : t.seconds = u.seconds) : t.native = u.native := by
  have whole {t : Timestamp} (ordinary : t.Ordinary) : t.wholeSeconds = ⟨t.seconds, 0⟩ := by
    rw [wholeSeconds, if_neg (Nat.not_le.2 ordinary.nanos_lt)]
  rw [← t.native_wholeSeconds, ← u.native_wholeSeconds, whole ordinary, whole ordinary', same]

/-- Native forms compare as the whole seconds of their instants. -/
theorem compare_native (ordinary : t.Ordinary) (ordinary' : u.Ordinary) :
    compareOfLessAndEq t.native u.native = compare t.seconds u.seconds := by
  rw [compareOfLessAndEq]
  rcases Int.lt_trichotomy t.seconds u.seconds with before | same | after
  · rw [if_pos (native_lt ordinary ordinary' before), Int.compare_eq_lt.2 before]
  · rw [native_eq ordinary ordinary' same, if_neg (String.lt_irrefl _), if_pos rfl,
      Int.compare_eq_eq.2 same]
  · have less := native_lt ordinary' ordinary after
    rw [if_neg (String.lt_asymm less), if_neg fun same => String.lt_irrefl _ (same ▸ less),
      Int.compare_eq_gt.2 after]

end Timestamp

end DataAccess
