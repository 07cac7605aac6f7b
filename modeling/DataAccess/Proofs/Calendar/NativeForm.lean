import DataAccess.Schema.Coercion
import DataAccess.Proofs.Calendar.DayNumber
import DataAccess.Proofs.Text.Decimal
/-
**Instants that were written for a backend.**  The native form of an instant has whole seconds.  It is
no notation with an offset, and read as a naive notation it gives the instant back without its
fraction.  Whatever is accepted as an instant can be written and read back in this way, also when its
year has more digits than four or a sign.

Main definitions:

* `Timestamp.Readable` — the instants that a text can denote;
* `Timestamp.wholeSeconds` — an instant without its fraction of a second.

Main results:

* `Notation.number_padded` — a written number is read back;
* `Timestamp.ofText?_native` — **the native form is read as the instant without its fraction**;
* `readable_of_parseTimestamp` — every instant that is read is readable;
* `parseTimestamp_native` — what was read and written is read again.
-/

set_option autoImplicit false

namespace DataAccess

open Text

/-! ### Numbers with a width -/

namespace Timestamp

theorem isDigit_of_mem_padded {width n : Nat} {c : Char} (h : c ∈ padded width n) :
    isDigit c = true := by
  rcases List.mem_append.1 h with h | h
  · rw [List.eq_of_mem_replicate h]
    decide
  · exact isDigit_of_mem_toDigits h

theorem decimalValue_padded (width n : Nat) : decimalValue (padded width n) = n := by
  rw [padded, decimalValue_replicate_append, decimalValue_toDigits]

theorem width_le_length_padded (width n : Nat) : width ≤ (padded width n).length := by
  simp only [padded, List.length_append, List.length_replicate]
  omega

theorem length_padded {width n : Nat} (pos : 0 < width) (h : n < 10 ^ width) :
    (padded width n).length = width := by
  have short : (Nat.toDigits 10 n).length ≤ width :=
    (Nat.length_toDigits_le_iff (by decide) pos).2 h
  simp only [padded, List.length_append, List.length_replicate]
  omega

/-- A written number begins with a digit. -/
theorem padded_eq_cons (width : Nat) (pos : 0 < width) (n : Nat) :
    ∃ c more, padded width n = c :: more ∧ isDigit c = true := by
  cases written : padded width n with
  | nil =>
      have long := width_le_length_padded width n
      rw [written] at long
      exact absurd pos (Nat.not_lt.2 long)
  | cons c more =>
      have first : c ∈ padded width n := by
        rw [written]
        exact List.mem_cons_self
      exact ⟨c, more, rfl, isDigit_of_mem_padded first⟩

end Timestamp

theorem not_isBlank_of_isDigit {c : Char} (h : isDigit c = true) : isBlank c = false := by
  simp only [isDigit, Bool.and_eq_true, decide_eq_true_eq] at h
  obtain ⟨low, high⟩ := h
  have low' : 48 ≤ c.toNat := low
  have high' : c.toNat ≤ 57 := high
  simp only [isBlank, blankRanges, List.any_cons, List.any_nil, Bool.or_false, Bool.or_eq_false_iff,
    Bool.and_eq_false_iff, decide_eq_false_iff_not]
  omega

namespace Notation

open Timestamp

/-! ### Parts of a written instant -/

/-- A written number is read back when no digit follows it. -/
theorem number_padded {least width n : Nat} {most : Option Nat} {rest : List Char}
    (after : ∀ c ∈ rest.head?, isDigit c = false) (long : least ≤ width)
    (short : ∀ m ∈ most, (padded width n).length ≤ m) :
    number least most (padded width n ++ rest) = some (n, rest) := by
  have read : digits least most (padded width n ++ rest) = some (padded width n, rest) :=
    digits_append (fun _ => isDigit_of_mem_padded) after
      (Nat.le_trans long (width_le_length_padded width n)) short
  rw [number, read]
  exact congrArg (fun m => some (m, rest)) (decimalValue_padded width n)

theorem trimStart_padded {width : Nat} (pos : 0 < width) (n : Nat) (rest : List Char) :
    trimStart (padded width n ++ rest) = padded width n ++ rest := by
  obtain ⟨c, more, written, digit⟩ := padded_eq_cons width pos n
  rw [written, List.cons_append]
  exact trimStart_eq_self (not_isBlank_of_isDigit digit)

/-- Two digits are read as a number that may have fewer. -/
theorem looseNumber_padded {n : Nat} {rest : List Char} (h : n < 100)
    (after : ∀ c ∈ rest.head?, isDigit c = false) :
    looseNumber (padded 2 n ++ rest) = some (n, rest) := by
  rw [looseNumber, trimStart_padded (by decide)]
  refine number_padded after (by decide) fun m hm => ?_
  rw [← Option.some.inj hm]
  exact Nat.le_of_eq (length_padded (by decide) h)

/-- A year is read back, with its sign if it has one. -/
theorem looseYear_yearText (year : Int) {rest : List Char}
    (after : ∀ c ∈ rest.head?, isDigit c = false) :
    looseYear (yearText year ++ rest) = some (year, rest) := by
  have signed (n : Nat) : number 1 none (padded 4 n ++ rest) = some (n, rest) :=
    number_padded after (by decide) fun m hm => nomatch hm
  by_cases small : 0 ≤ year ∧ year ≤ 9999
  · rw [yearText, if_pos small, looseYear, trimStart_padded (by decide)]
    have short : number 1 (some 4) (padded 4 year.toNat ++ rest) = some (year.toNat, rest) := by
      refine number_padded after (by decide) fun m hm => ?_
      rw [← Option.some.inj hm]
      exact Nat.le_of_eq (length_padded (by decide) (by omega))
    obtain ⟨c, more, written, digit⟩ := padded_eq_cons 4 (by decide) year.toNat
    split
    · next written' =>
      rw [written, List.cons_append, List.cons.injEq] at written'
      rw [written'.1] at digit
      exact absurd digit (by decide)
    · next written' =>
      rw [written, List.cons_append, List.cons.injEq] at written'
      rw [written'.1] at digit
      exact absurd digit (by decide)
    · rw [short]
      have value : ((year.toNat : Nat) : Int) = year := Int.toNat_of_nonneg small.1
      simp [value]
  · rw [yearText, if_neg small]
    by_cases negative : year < 0
    · have blank : isBlank '-' = false := by decide
      have value : -((year.natAbs : Nat) : Int) = year := by omega
      rw [if_pos negative, List.cons_append, looseYear, trimStart_eq_self blank]
      simp only [signed, Option.bind_eq_bind, Option.bind_some, value]
    · have blank : isBlank '+' = false := by decide
      have value : ((year.natAbs : Nat) : Int) = year := by omega
      rw [if_neg negative, List.cons_append, looseYear, trimStart_eq_self blank]
      simp only [signed, Option.bind_eq_bind, Option.bind_some, value]

theorem oneOf_cons {allowed : List Char} {c : Char} (h : allowed.contains c = true)
    (rest : List Char) : oneOf allowed (c :: rest) = some rest := by
  rw [oneOf, if_pos h]

theorem looseDate_dateText {d : Date} {rest : List Char} (month : d.month < 100)
    (day : d.day < 100) (after : ∀ c ∈ rest.head?, isDigit c = false) :
    looseDate (dateText d ++ rest) = some ((d.year, d.month, d.day), rest) := by
  have text : dateText d ++ rest = yearText d.year ++ ('-' :: (padded 2 d.month ++ ('-' ::
      (padded 2 d.day ++ rest)))) := by
    simp [dateText]
  have hyphen : isDigit '-' = false := by decide
  rw [text, looseDate, looseYear_yearText d.year (by simp [hyphen])]
  simp only [Option.bind_eq_bind, Option.bind_some]
  rw [oneOf_cons (by decide), Option.bind_some, looseNumber_padded month (by simp [hyphen]),
    Option.bind_some, oneOf_cons (by decide), Option.bind_some, looseNumber_padded day after]
  rfl

end Notation

/-! ### Instants that a text can denote -/

namespace Timestamp

/-- An instant whose year can be represented, with less than two seconds' worth of nanoseconds, more
than one only at the end of a minute. -/
structure Readable (t : Timestamp) : Prop where
  least : daysBeforeYear leastYear ≤ t.dayNumber
  greatest : t.dayNumber < daysBeforeYear (greatestYear + 1)
  nanos_lt : t.nanos < 2000000000
  leap : 1000000000 ≤ t.nanos → t.secondOfDay % 60 = 59

/-- An instant without its fraction of a second; a leap second stays one. -/
def wholeSeconds (t : Timestamp) : Timestamp :=
  ⟨t.seconds, if 1000000000 ≤ t.nanos then 1000000000 else 0⟩

/-- The native form shows whole seconds only. -/
theorem native_wholeSeconds (t : Timestamp) : t.wholeSeconds.native = t.native := by
  have time : timeText t.wholeSeconds = timeText t := by
    by_cases leap : 1000000000 ≤ t.nanos
    · simp [timeText, wholeSeconds, secondOfDay, leap]
    · simp [timeText, wholeSeconds, secondOfDay, leap]
  have date : t.wholeSeconds.date = t.date := rfl
  rw [native, native, time, date]

/-- The numbers that the native form writes. -/
def fields (t : Timestamp) : Notation.Fields :=
  { year := t.date.year, month := t.date.month, day := t.date.day
    hour := t.secondOfDay / 3600, minute := t.secondOfDay / 60 % 60
    second := t.secondOfDay % 60 + if 1000000000 ≤ t.nanos then 1 else 0, nanos := 0 }

theorem fields_instant {t : Timestamp} (readable : t.Readable) :
    t.fields.instant? 0 = some t.wholeSeconds := by
  have valid : t.date.isValid = true := Date.isValid_ofDayNumber readable.least readable.greatest
  have found : Date.of? t.date.year t.date.month t.date.day = some t.date := by
    rw [Date.of?, if_pos valid]
  have inDay := t.secondOfDay_lt
  have day : t.date.dayNumber = t.dayNumber := Date.dayNumber_ofDayNumber t.dayNumber
  have seconds := t.split_seconds
  by_cases leap : 1000000000 ≤ t.nanos
  · have last := readable.leap leap
    have times : t.secondOfDay / 3600 < 24 ∧ t.secondOfDay / 60 % 60 < 60 := by omega
    simp only [Notation.Fields.instant?, fields, found, leap, last, if_true, Option.bind_eq_bind,
      Option.bind_some, times, ofDay, day, wholeSeconds]
    simp
    omega
  · have times : t.secondOfDay / 3600 < 24 ∧ t.secondOfDay / 60 % 60 < 60 ∧
        t.secondOfDay % 60 ≤ 60 ∧ t.secondOfDay % 60 ≠ 60 := by omega
    simp only [Notation.Fields.instant?, fields, found, leap, if_false, Option.bind_eq_bind,
      Option.bind_some, times, ofDay, day, wholeSeconds]
    simp [times]
    omega

theorem date_bounds (t : Timestamp) : t.date.month < 100 ∧ t.date.day < 100 := by
  obtain ⟨-, -, month, -, day, -⟩ := Date.ofDayNumber_spec t.dayNumber
  have most := daysInMonth_le t.date.year t.date.month
  exact ⟨Nat.lt_of_le_of_lt month (by decide),
    Nat.lt_of_le_of_lt (Nat.le_trans day most) (by decide)⟩

end Timestamp

namespace Notation

open Timestamp

/-- The native form is a naive notation of the instant without its fraction. -/
theorem naiveForm_native {t : Timestamp} (readable : t.Readable) :
    naiveForm (dateText t.date ++ ' ' :: timeText t) = some t.wholeSeconds := by
  obtain ⟨month, day⟩ := t.date_bounds
  have inDay := t.secondOfDay_lt
  have blank : isDigit ' ' = false := by decide
  have colon : isDigit ':' = false := by decide
  have hour : looseNumber (' ' :: timeText t) = some (t.secondOfDay / 3600,
      ':' :: (padded 2 (t.secondOfDay / 60 % 60) ++ ':' ::
        padded 2 (t.secondOfDay % 60 + if 1000000000 ≤ t.nanos then 1 else 0))) := by
    have skipped (s : List Char) : looseNumber (' ' :: s) = looseNumber s := rfl
    rw [skipped, timeText]
    simp only [List.append_assoc, List.cons_append]
    exact looseNumber_padded (by omega) (by simp [colon])
  have second : looseNumber (padded 2 (t.secondOfDay % 60 +
      if 1000000000 ≤ t.nanos then 1 else 0)) = some (t.fields.second, []) := by
    have small : t.fields.second < 100 := by
      simp only [fields]
      split <;> omega
    have read : looseNumber (padded 2 t.fields.second ++ []) = some (t.fields.second, []) :=
      looseNumber_padded small (by simp)
    rw [List.append_nil] at read
    exact read
  rw [naiveForm, looseDate_dateText month day (by simp [blank])]
  simp only [Option.bind_eq_bind, Option.bind_some]
  change (looseNumber (' ' :: timeText t)).bind _ = _
  rw [hour, Option.bind_some]
  simp only
  rw [oneOf_cons (by decide), Option.bind_some,
    looseNumber_padded (by omega) (by simp [colon]), Option.bind_some]
  simp only
  rw [oneOf_cons (by decide), Option.bind_some, second, Option.bind_some]
  exact fields_instant readable

/-- The time of the native form is read as two digits each, and nothing follows it. -/
theorem twoDigits {n : Nat} {rest : List Char} (h : n < 100)
    (after : ∀ c ∈ rest.head?, isDigit c = false) :
    number 2 (some 2) (padded 2 n ++ rest) = some (n, rest) := by
  refine number_padded after (Nat.le_refl 2) fun m hm => ?_
  rw [← Option.some.inj hm]
  exact Nat.le_of_eq (length_padded (by decide) h)

/-- A text without an offset at its end is no notation with an offset: the native form. -/
theorem offsetForm_native (t : Timestamp) :
    offsetForm (dateText t.date ++ ' ' :: timeText t) = none := by
  obtain ⟨month, day⟩ := t.date_bounds
  have inDay := t.secondOfDay_lt
  have hyphen : isDigit '-' = false := by decide
  have blank : isDigit ' ' = false := by decide
  have colon : isDigit ':' = false := by decide
  have text : dateText t.date ++ ' ' :: timeText t = yearText t.date.year ++ ('-' ::
      (padded 2 t.date.month ++ ('-' :: (padded 2 t.date.day ++ (' ' ::
        (padded 2 (t.secondOfDay / 3600) ++ (':' :: (padded 2 (t.secondOfDay / 60 % 60) ++ (':' ::
          (padded 2 (t.secondOfDay % 60 + if 1000000000 ≤ t.nanos then 1 else 0)
            ++ [])))))))))) := by
    simp [dateText, timeText]
  have second : t.secondOfDay % 60 + (if 1000000000 ≤ t.nanos then 1 else 0) < 100 := by
    split <;> omega
  rw [text, offsetForm]
  by_cases small : 0 ≤ t.date.year ∧ t.date.year ≤ 9999
  · have year (rest : List Char) (after : ∀ c ∈ rest.head?, isDigit c = false) :
        number 4 (some 4) (padded 4 t.date.year.toNat ++ rest) =
          some (t.date.year.toNat, rest) := by
      refine number_padded after (Nat.le_refl 4) fun m hm => ?_
      rw [← Option.some.inj hm]
      exact Nat.le_of_eq (length_padded (by decide) (by omega))
    rw [yearText, if_pos small, year _ (by simp [hyphen])]
    simp only [Option.bind_eq_bind, Option.bind_some]
    rw [oneOf_cons (by decide), Option.bind_some, twoDigits month (by simp [hyphen]),
      Option.bind_some]
    simp only
    rw [oneOf_cons (by decide), Option.bind_some, twoDigits day (by simp [blank]),
      Option.bind_some]
    simp only
    rw [oneOf_cons (by decide), Option.bind_some, twoDigits (by omega) (by simp [colon]),
      Option.bind_some]
    simp only
    rw [oneOf_cons (by decide), Option.bind_some, twoDigits (by omega) (by simp [colon]),
      Option.bind_some]
    simp only
    rw [oneOf_cons (by decide), Option.bind_some, twoDigits second (by simp)]
    rfl
  · -- a sign stands where the year's digits are expected
    rw [yearText, if_neg small]
    split
    · rfl
    · rfl

end Notation

namespace Timestamp

theorem yearText_eq_cons (year : Int) :
    ∃ c more, yearText year = c :: more ∧ isBlank c = false := by
  unfold yearText
  split
  · obtain ⟨c, more, written, digit⟩ := padded_eq_cons 4 (by decide) year.toNat
    exact ⟨c, more, written, not_isBlank_of_isDigit digit⟩
  · split
    · exact ⟨'-', _, rfl, by decide⟩
    · exact ⟨'+', _, rfl, by decide⟩

/-- The native form neither begins nor ends with a blank. -/
theorem trim_native (t : Timestamp) :
    trim t.native.toList = dateText t.date ++ ' ' :: timeText t := by
  have text : t.native.toList = dateText t.date ++ ' ' :: timeText t := String.toList_ofList
  rw [text]
  refine trim_eq_self (fun c hc => ?_) (fun c hc => ?_)
  · obtain ⟨first, more, written, visible⟩ := yearText_eq_cons t.date.year
    rw [dateText, written] at hc
    simp only [List.cons_append, List.head?_cons, Option.mem_some_iff] at hc
    rw [← hc]
    exact visible
  · obtain ⟨before, n, written⟩ : ∃ before n,
        dateText t.date ++ ' ' :: timeText t = before ++ padded 2 n := by
      refine ⟨dateText t.date ++ ' ' :: (padded 2 (t.secondOfDay / 3600) ++ ':' ::
        padded 2 (t.secondOfDay / 60 % 60) ++ [':']),
        t.secondOfDay % 60 + if 1000000000 ≤ t.nanos then 1 else 0, ?_⟩
      simp only [timeText, List.append_assoc, List.cons_append, List.nil_append]
    obtain ⟨first, more, digits, -⟩ := padded_eq_cons 2 (by decide) n
    have last : c ∈ (padded 2 n).getLast? := by
      rw [written, List.getLast?_append, digits, List.getLast?_cons] at hc
      rw [digits, List.getLast?_cons]
      exact hc
    exact not_isBlank_of_isDigit (isDigit_of_mem_padded (List.mem_of_getLast? last))

/-- **The native form is read as the instant without its fraction.** -/
theorem ofText?_native {t : Timestamp} (readable : t.Readable) :
    ofText? (trim t.native.toList) = some t.wholeSeconds := by
  rw [trim_native, ofText?, Notation.offsetForm_native, Notation.naiveForm_native readable]
  rfl

/-! ### What is read can be written -/

/-- An offset below a day moves a second of a day by one day at most.  The calendar has room for that
next to the years of four digits, and needs none where there is no offset. -/
theorem dayNumber_offset {date : Date} (valid : date.isValid = true) {s : Nat} (inDay : s < 86400)
    {offset : Int} (short : -86400 < offset ∧ offset < 86400)
    (near : offset = 0 ∨ 0 ≤ date.year ∧ date.year ≤ 9999) :
    daysBeforeYear leastYear ≤ (s - offset) / 86400 + date.dayNumber ∧
      (s - offset) / 86400 + date.dayNumber < daysBeforeYear (greatestYear + 1) := by
  rcases near with rfl | ⟨low, high⟩
  · obtain ⟨least, greatest⟩ := Date.dayNumber_inRange valid
    omega
  · obtain ⟨from_year, to_year⟩ := Date.dayNumber_inYear valid
    have first := daysBeforeYear_mono low
    have last := daysBeforeYear_mono (Int.add_le_add_right high 1)
    have least : daysBeforeYear leastYear ≤ daysBeforeYear 0 - 1 := by decide
    have greatest : daysBeforeYear (9999 + 1) + 1 ≤ daysBeforeYear (greatestYear + 1) := by decide
    omega

/-- The instant of numbers in their ranges, with an offset of whole minutes below a day. -/
theorem readable_instant {f : Notation.Fields} {offset : Int} {t : Timestamp}
    (h : f.instant? offset = some t) (nanos_lt : f.nanos < 1000000000)
    (minutes : offset % 60 = 0) (short : -86400 < offset ∧ offset < 86400)
    (near : offset = 0 ∨ 0 ≤ f.year ∧ f.year ≤ 9999) : t.Readable := by
  obtain ⟨date, found, h⟩ := Option.bind_eq_some_iff.1 h
  obtain ⟨valid, year⟩ : date.isValid = true ∧ date.year = f.year := by
    unfold Date.of? at found
    simp only [Option.ite_none_right_eq_some, Option.some.injEq] at found
    obtain ⟨valid, rfl⟩ := found
    exact ⟨valid, rfl⟩
  obtain ⟨ranges, h⟩ := Option.ite_none_right_eq_some.1 h
  simp only [Bool.and_eq_true, decide_eq_true_eq] at ranges
  obtain ⟨⟨hour, minute⟩, second⟩ := ranges
  -- the second of the day before the offset is taken into account
  obtain ⟨s, hs, inDay, leap⟩ : ∃ s : Nat, (f.hour * 3600 + f.minute * 60 +
      (f.second - (if f.second = 60 then 1 else 0) : Nat) : Int) = s ∧ s < 86400 ∧
      (f.second = 60 → s % 60 = 59) := by
    refine ⟨f.hour * 3600 + f.minute * 60 + (f.second - if f.second = 60 then 1 else 0),
      by simp, ?_, ?_⟩
    · split <;> omega
    · intro leap
      rw [if_pos leap]
      omega
  have instant : t = ofDay date.dayNumber (s - offset)
      (f.nanos + (if f.second = 60 then 1 else 0) * 1000000000) := by
    rw [← Option.some.inj h, ← hs]
  have nanos : t.nanos = f.nanos + (if f.second = 60 then 1 else 0) * 1000000000 := by
    rw [instant]
    rfl
  have seconds : t.seconds = (date.dayNumber - Date.epoch) * 86400 + (s - offset) := by
    rw [instant]
    rfl
  have day : t.dayNumber = (s - offset) / 86400 + date.dayNumber := by
    rw [dayNumber, seconds]
    omega
  have inMinute : (t.secondOfDay : Int) % 60 = s % 60 := by
    rw [secondOfDay, seconds]
    omega
  have range := dayNumber_offset valid inDay short (year ▸ near)
  rw [← day] at range
  refine ⟨range.1, range.2, ?_, fun h => ?_⟩
  · rw [nanos]
    split <;> omega
  · by_cases last : f.second = 60
    · have end_of_minute := leap last
      omega
    · rw [nanos, if_neg last] at h
      omega

end Timestamp

namespace Notation

theorem number_lt {least n m : Nat} {s rest : List Char}
    (h : number least (some n) s = some (m, rest)) : m < 10 ^ n := by
  obtain ⟨⟨read, more⟩, found, he⟩ := Option.bind_eq_some_iff.1 h
  simp only [Option.some.injEq, Prod.mk.injEq] at he
  rw [← he.1]
  exact decimalValue_digits_lt found

theorem fraction_lt {s rest : List Char} {nanos : Nat}
    (h : optionalFraction s = some (nanos, rest)) : nanos < 1000000000 := by
  unfold optionalFraction at h
  split at h
  · obtain ⟨⟨read, more⟩, found, he⟩ := Option.bind_eq_some_iff.1 h
    simp only [Option.some.injEq, Prod.mk.injEq] at he
    have below := decimalValue_lt (isDigit_of_mem_digits found)
    have most := (digits_length found).2
    have whole : 10 ^ read.length * 10 ^ (9 - read.length) = 1000000000 := by
      rw [← Nat.pow_add, Nat.add_sub_cancel' most]
    rw [← he.1, ← whole]
    exact Nat.mul_lt_mul_of_pos_right below (Nat.pow_pos (by decide))
  · simp only [Option.some.injEq, Prod.mk.injEq] at h
    rw [← h.1]
    decide

theorem offset_bounds {s rest : List Char} {ahead : Int} (h : offset s = some (ahead, rest)) :
    ahead % 60 = 0 ∧ -86400 < ahead ∧ ahead < 86400 := by
  have signed {sign : Int} (unit : sign = 1 ∨ sign = -1) {s : List Char}
      (h : offset.hoursMinutes sign s = some (ahead, rest)) :
      ahead % 60 = 0 ∧ -86400 < ahead ∧ ahead < 86400 := by
    obtain ⟨⟨hours, s1⟩, -, h⟩ := Option.bind_eq_some_iff.1 h
    obtain ⟨s2, -, h⟩ := Option.bind_eq_some_iff.1 h
    obtain ⟨⟨minutes, s3⟩, -, h⟩ := Option.bind_eq_some_iff.1 h
    obtain ⟨ranges, h⟩ := Option.ite_none_right_eq_some.1 h
    simp only [Bool.and_eq_true, decide_eq_true_eq] at ranges
    simp only [Option.some.injEq, Prod.mk.injEq] at h
    rw [← h.1]
    rcases unit with rfl | rfl <;> omega
  unfold offset at h
  split at h
  · simp only [Option.some.injEq, Prod.mk.injEq] at h
    rw [← h.1]
    decide
  · simp only [Option.some.injEq, Prod.mk.injEq] at h
    rw [← h.1]
    decide
  · exact signed (.inl rfl) h
  · exact signed (.inr rfl) h
  · exact signed (.inr rfl) h
  · simp at h

theorem readable_offsetForm {s : List Char} {t : Timestamp} (h : offsetForm s = some t) :
    t.Readable := by
  obtain ⟨⟨year, s1⟩, hyear, h⟩ := Option.bind_eq_some_iff.1 h
  obtain ⟨s2, -, h⟩ := Option.bind_eq_some_iff.1 h
  obtain ⟨⟨month, s3⟩, -, h⟩ := Option.bind_eq_some_iff.1 h
  obtain ⟨s4, -, h⟩ := Option.bind_eq_some_iff.1 h
  obtain ⟨⟨day, s5⟩, -, h⟩ := Option.bind_eq_some_iff.1 h
  obtain ⟨s6, -, h⟩ := Option.bind_eq_some_iff.1 h
  obtain ⟨⟨hour, s7⟩, -, h⟩ := Option.bind_eq_some_iff.1 h
  obtain ⟨s8, -, h⟩ := Option.bind_eq_some_iff.1 h
  obtain ⟨⟨minute, s9⟩, -, h⟩ := Option.bind_eq_some_iff.1 h
  obtain ⟨s10, -, h⟩ := Option.bind_eq_some_iff.1 h
  obtain ⟨⟨second, s11⟩, -, h⟩ := Option.bind_eq_some_iff.1 h
  obtain ⟨⟨nanos, s12⟩, hnanos, h⟩ := Option.bind_eq_some_iff.1 h
  obtain ⟨⟨ahead, s13⟩, hoffset, h⟩ := Option.bind_eq_some_iff.1 h
  obtain ⟨-, h⟩ := Option.ite_none_right_eq_some.1 h
  obtain ⟨minutes, short⟩ := offset_bounds hoffset
  have fourDigits := number_lt hyear
  refine Timestamp.readable_instant h (fraction_lt hnanos) minutes short (.inr ⟨?_, ?_⟩)
  · exact Int.natCast_nonneg year
  · simp only
    omega

theorem readable_naiveForm {s : List Char} {t : Timestamp} (h : naiveForm s = some t) :
    t.Readable := by
  obtain ⟨⟨⟨year, month, day⟩, s1⟩, -, h⟩ := Option.bind_eq_some_iff.1 h
  obtain ⟨⟨hour, s2⟩, -, h⟩ := Option.bind_eq_some_iff.1 h
  obtain ⟨s3, -, h⟩ := Option.bind_eq_some_iff.1 h
  obtain ⟨⟨minute, s4⟩, -, h⟩ := Option.bind_eq_some_iff.1 h
  obtain ⟨s5, -, h⟩ := Option.bind_eq_some_iff.1 h
  obtain ⟨⟨second, s6⟩, -, h⟩ := Option.bind_eq_some_iff.1 h
  obtain ⟨⟨nanos, s7⟩, hnanos, h⟩ := Option.bind_eq_some_iff.1 h
  obtain ⟨-, h⟩ := Option.ite_none_right_eq_some.1 h
  exact Timestamp.readable_instant h (fraction_lt hnanos) rfl (by decide) (.inl rfl)

theorem readable_dateForm {s : List Char} {t : Timestamp} (h : dateForm s = some t) :
    t.Readable := by
  obtain ⟨⟨⟨year, month, day⟩, s1⟩, -, h⟩ := Option.bind_eq_some_iff.1 h
  obtain ⟨-, h⟩ := Option.ite_none_right_eq_some.1 h
  exact Timestamp.readable_instant h (Nat.zero_lt_succ _) rfl (by decide) (.inl rfl)

end Notation

theorem Timestamp.readable_ofText? {s : List Char} {t : Timestamp}
    (h : Timestamp.ofText? s = some t) : t.Readable := by
  simp only [ofText?, Option.orElse_eq_orElse, Option.orElse_eq_or, Option.or_eq_some_iff] at h
  rcases h with h | ⟨-, h | ⟨-, h⟩⟩
  · exact Notation.readable_offsetForm h
  · exact Notation.readable_naiveForm h
  · exact Notation.readable_dateForm h

theorem Timestamp.readable_ofMillis? {ms : Int} {t : Timestamp}
    (h : Timestamp.ofMillis? ms = some t) : t.Readable := by
  obtain ⟨range, h⟩ := Option.ite_none_right_eq_some.1 h
  simp only [inRange, Bool.and_eq_true, decide_eq_true_eq] at range
  have instant := Option.some.inj h
  rw [instant] at range
  have nanos : t.nanos = (ms % 1000).toNat * 1000000 := by rw [← instant]
  refine ⟨range.1, range.2, ?_, fun leap => ?_⟩
  · omega
  · omega

/-- Every instant that a value denotes is readable. -/
theorem readable_of_parseTimestamp {v : Json} {t : Timestamp} (h : parseTimestamp v = some t) :
    t.Readable := by
  cases v with
  | string s => exact Timestamp.readable_ofText? h
  | number n =>
      obtain ⟨ms, -, h⟩ := Option.bind_eq_some_iff.1 h
      exact Timestamp.readable_ofMillis? h
  | null => simp [parseTimestamp] at h
  | bool b => simp [parseTimestamp] at h
  | array items => simp [parseTimestamp] at h
  | object entries => simp [parseTimestamp] at h

/-- An instant that was read and written for a backend is read again, without its fraction. -/
theorem parseTimestamp_native {v : Json} {t : Timestamp} (h : parseTimestamp v = some t) :
    parseTimestamp (.string t.native) = some t.wholeSeconds :=
  Timestamp.ofText?_native (readable_of_parseTimestamp h)

end DataAccess
