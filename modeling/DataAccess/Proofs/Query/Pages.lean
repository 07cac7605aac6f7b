import Mathlib.Algebra.GroupWithZero.Nat
import DataAccess.Query.Pagination
import DataAccess.Proofs.Query.Markers
/-
**The pages of a result.**  Limits, offsets and totals are 64-bit words.  The markers around a page are
found without leaving the words, and they are those of exact arithmetic.  Following the marker of the
next page from the start on leads through pages that part the result: each row is on one of them.

Main definitions:

* `Word.add?`, `Word.sub?`, `Word.mul?` — arithmetic of words that refuses what does not fit;
* `Pagination.computeInWords` — the markers around a page in this arithmetic;
* `pageCount` — the number of pages of a result;
* `Pagination.read` — the window that a marker is read as;
* `Pagination.pagesFrom` — the pages that the markers lead to.

Main results:

* `Pagination.computeInWords_eq` — **no operation leaves the words**;
* `Pagination.prev_of_next` — the page before the next one is this one;
* `Pagination.pagesFrom_eq` — **the pages start at the multiples of the limit**;
* `Pagination.sum_rows_pagesFrom` — **each row is on one page**;
* `Pagination.compute_partitions` — all of this together.
-/

set_option autoImplicit false

namespace DataAccess

/-! ### Words -/

namespace Word

/-- A result that must fit 64 bits. -/
def fit? (n : Nat) : Option UInt64 :=
  if h : n < 2 ^ 64 then some (UInt64.ofNatLT n h) else none

/-- The sum, unless it is too large. -/
def add? (a b : UInt64) : Option UInt64 := fit? (a.toNat + b.toNat)

/-- The product, unless it is too large. -/
def mul? (a b : UInt64) : Option UInt64 := fit? (a.toNat * b.toNat)

/-- The difference, unless it is negative. -/
def sub? (a b : UInt64) : Option UInt64 := if b ≤ a then some (a - b) else none

/-- The sum, or the greatest word. -/
def addCapped (a b : UInt64) : UInt64 := (add? a b).getD (.ofNatLT (2 ^ 64 - 1) (by decide))

/-- The difference, or zero. -/
def subCapped (a b : UInt64) : UInt64 := (sub? a b).getD 0

theorem fit?_of_lt {n : Nat} (h : n < 2 ^ 64) : ∃ w, fit? n = some w ∧ w.toNat = n :=
  ⟨UInt64.ofNatLT n h, dif_pos h, rfl⟩

theorem add?_of_lt {a b : UInt64} (h : a.toNat + b.toNat < 2 ^ 64) :
    ∃ w, add? a b = some w ∧ w.toNat = a.toNat + b.toNat :=
  fit?_of_lt h

theorem mul?_of_lt {a b : UInt64} (h : a.toNat * b.toNat < 2 ^ 64) :
    ∃ w, mul? a b = some w ∧ w.toNat = a.toNat * b.toNat :=
  fit?_of_lt h

theorem sub?_of_le {a b : UInt64} (h : b ≤ a) :
    ∃ w, sub? a b = some w ∧ w.toNat = a.toNat - b.toNat :=
  ⟨a - b, if_pos h, UInt64.toNat_sub_of_le a b h⟩

theorem toNat_addCapped (a b : UInt64) :
    (addCapped a b).toNat = min (a.toNat + b.toNat) (2 ^ 64 - 1) := by
  rw [addCapped]
  by_cases h : a.toNat + b.toNat < 2 ^ 64
  · obtain ⟨w, fits, value⟩ := add?_of_lt h
    rw [fits, Option.getD_some, value]
    omega
  · have none : add? a b = none := dif_neg h
    have cap : (UInt64.ofNatLT (2 ^ 64 - 1) (by decide)).toNat = 2 ^ 64 - 1 := rfl
    rw [none, Option.getD_none, cap]
    omega

theorem toNat_subCapped (a b : UInt64) : (subCapped a b).toNat = a.toNat - b.toNat := by
  rw [subCapped]
  by_cases h : b ≤ a
  · obtain ⟨w, fits, value⟩ := sub?_of_le h
    rw [fits, Option.getD_some, value]
  · have none : sub? a b = none := if_neg h
    have less : ¬ b.toNat ≤ a.toNat := h
    rw [none, Option.getD_none]
    have zero : (0 : UInt64).toNat = 0 := rfl
    omega

theorem toNat_step (limit : UInt64) : (max limit 1).toNat = max limit.toNat 1 := by
  rw [UInt64.toNat_max]
  rfl

end Word

/-! ### Counting pages -/

/-- The number of pages of a result; an empty result has one page. -/
def pageCount (total limit : Nat) : Nat := max 1 ((total + limit - 1) / limit)

/-- Rows that fit on one page. -/
theorem pageCount_of_le {total limit : Nat} (positive : 0 < limit) (h : total ≤ limit) :
    pageCount total limit = 1 := by
  have small : (total + limit - 1) / limit ≤ 1 := by
    refine Nat.lt_succ_iff.1 ((Nat.div_lt_iff_lt_mul positive).2 ?_)
    omega
  rw [pageCount]
  omega

/-- A full page, with rows behind it. -/
theorem pageCount_of_lt {total limit : Nat} (positive : 0 < limit) (h : limit < total) :
    pageCount total limit = pageCount (total - limit) limit + 1 := by
  -- a page less is one less in the quotient
  have whole : (total + limit - 1) / limit = (total - 1) / limit + 1 := by
    rw [← Nat.add_div_right _ positive]
    congr 1
    omega
  have rest : total - limit + limit - 1 = total - 1 := by omega
  have more : 1 ≤ (total - 1) / limit := (Nat.one_le_div_iff positive).2 (by omega)
  rw [pageCount, pageCount, whole, rest]
  omega

/-- The pages before the last one are full. -/
theorem pageCount_eq {total limit : Nat} (positive : 0 < limit) (filled : 0 < total) :
    pageCount total limit = (total - 1) / limit + 1 := by
  have whole : total + limit - 1 = total - 1 + limit := by omega
  rw [pageCount, whole, Nat.add_div_right _ positive]
  exact Nat.max_eq_right (Nat.le_add_left 1 _)

namespace Pagination

/-! ### The markers in words -/

/-- The window of a page in words. -/
def wordWindow (limit offset : UInt64) : Window := ⟨limit.toNat, offset.toNat⟩

/-- The page before, found with a capped difference. -/
def prevInWords (limit offset : UInt64) : Option Window :=
  if 0 < offset then some (wordWindow limit (Word.subCapped offset (max limit 1))) else none

/-- The page after: a capped sum is compared with the total, and the sum itself must fit. -/
def nextInWords (limit offset total : UInt64) : Option (Option Window) :=
  if Word.addCapped offset (max limit 1) < total then
    (Word.add? offset (max limit 1)).map fun start => some (wordWindow limit start)
  else some none

/-- The last page: the difference and the product must fit. -/
def lastInWords (limit total : UInt64) : Option (Option Window) :=
  if 0 < total then do
    let before ← Word.sub? total 1
    let start ← Word.mul? (before / max limit 1) (max limit 1)
    return some (wordWindow limit start)
  else some none

/-- The markers around a page in arithmetic of 64-bit words; nothing if an operation leaves them. -/
def computeInWords (limit offset total : UInt64) : Option Pagination := do
  let next ← nextInWords limit offset total
  let last ← lastInWords limit total
  return {
    rows := (min (Word.subCapped total offset) limit).toNat
    current := wordWindow limit offset
    prev := prevInWords limit offset
    next
    first := wordWindow limit 0
    last }

theorem prevInWords_eq (limit offset total : UInt64) :
    prevInWords limit offset = (compute limit.toNat offset.toNat total.toNat).prev := by
  have positive : 0 < offset ↔ 0 < offset.toNat := UInt64.lt_iff_toNat_lt
  simp only [prevInWords, positive, wordWindow, Word.toNat_subCapped, Word.toNat_step, compute]

/-- A capped sum is the greatest word, which lies below no total. -/
theorem nextInWords_eq (limit offset total : UInt64) :
    nextInWords limit offset total =
      some (compute limit.toNat offset.toNat total.toNat).next := by
  have bound := total.toNat_lt
  have more : Word.addCapped offset (max limit 1) < total ↔
      offset.toNat + max limit.toNat 1 < total.toNat := by
    rw [UInt64.lt_iff_toNat_lt, Word.toNat_addCapped, Word.toNat_step]
    omega
  simp only [nextInWords, more, compute]
  split
  · next inside =>
    obtain ⟨start, fits, value⟩ :=
      Word.add?_of_lt (a := offset) (b := max limit 1) (by rw [Word.toNat_step]; omega)
    rw [fits, Option.map_some, wordWindow, value, Word.toNat_step]
  · rfl

/-- The last page starts below the total. -/
theorem lastInWords_eq (limit offset total : UInt64) :
    lastInWords limit total = some (compute limit.toNat offset.toNat total.toNat).last := by
  have bound := total.toNat_lt
  have positive : 0 < total ↔ 0 < total.toNat := UInt64.lt_iff_toNat_lt
  simp only [lastInWords, positive, compute]
  split
  · next filled =>
    have one : (1 : UInt64).toNat = 1 := rfl
    obtain ⟨before, less, value⟩ :=
      Word.sub?_of_le (a := total) (b := 1) (UInt64.le_iff_toNat_le.2 filled)
    have quotient : (before / max limit 1).toNat = (total.toNat - 1) / max limit.toNat 1 := by
      rw [UInt64.toNat_div, value, Word.toNat_step, one]
    have below := Nat.div_mul_le_self (total.toNat - 1) (max limit.toNat 1)
    obtain ⟨start, fits, value⟩ :=
      Word.mul?_of_lt (a := before / max limit 1) (b := max limit 1)
        (by rw [quotient, Word.toNat_step]; omega)
    rw [less, Option.bind_eq_bind, Option.bind_some, fits, Option.bind_some,
      wordWindow, value, quotient, Word.toNat_step]
    rfl
  · rfl

/-- **No operation leaves the words.** -/
theorem computeInWords_eq (limit offset total : UInt64) :
    computeInWords limit offset total =
      some (compute limit.toNat offset.toNat total.toNat) := by
  have rows : (min (Word.subCapped total offset) limit).toNat =
      min (total.toNat - offset.toNat) limit.toNat := by
    rw [UInt64.toNat_min, Word.toNat_subCapped]
  rw [computeInWords, nextInWords_eq, lastInWords_eq limit offset, prevInWords_eq limit offset total,
    rows]
  rfl

/-! ### Following the markers -/

/-- The window that a marker is read as, if there is a marker. -/
def read (marker : Option Window) : Option Window :=
  marker.bind fun w => Window.decode? w.encode

theorem read_eq_some {marker : Option Window} {w : Window} (h : read marker = some w) :
    marker = some w := by
  obtain ⟨v, rfl, back⟩ := Option.bind_eq_some_iff.1 h
  rw [Window.decode?_encode] at back
  obtain ⟨-, same⟩ := Option.ite_none_right_eq_some.1 back
  rw [same]

theorem read_of_fits {limit offset : Nat} (hl : limit < 2 ^ 64) (ho : offset < 2 ^ 64) :
    read (some ⟨limit, offset⟩) = some ⟨limit, offset⟩ := by
  rw [read, Option.bind_some, Window.decode?_encode, if_pos ⟨hl, ho⟩]

variable {limit offset total : Nat}

/-- There is a page after this one exactly if rows are left. -/
theorem next_eq (positive : 0 < limit) : (compute limit offset total).next =
    if offset + limit < total then some ⟨limit, offset + limit⟩ else none := by
  have step : max limit 1 = limit := Nat.max_eq_left positive
  simp only [compute, step]

theorem prev_eq (positive : 0 < limit) : (compute limit offset total).prev =
    if 0 < offset then some ⟨limit, offset - limit⟩ else none := by
  have step : max limit 1 = limit := Nat.max_eq_left positive
  simp only [compute, step]

theorem last_eq (positive : 0 < limit) : (compute limit offset total).last =
    if 0 < total then some ⟨limit, (total - 1) / limit * limit⟩ else none := by
  have step : max limit 1 = limit := Nat.max_eq_left positive
  simp only [compute, step]

/-- The page before the next one is this one. -/
theorem prev_of_next {w : Window} (positive : 0 < limit)
    (next : (compute limit offset total).next = some w) :
    (compute w.limit w.offset total).prev = some ⟨limit, offset⟩ := by
  rw [next_eq positive] at next
  obtain ⟨more, same⟩ := Option.ite_none_right_eq_some.1 next
  obtain rfl := Option.some.inj same
  rw [prev_eq positive, if_pos (by dsimp only; omega), Nat.add_sub_cancel]

/-- The pages from a window on: the marker of each page is read to get the next one. -/
def pagesFrom (total : Nat) (w : Window) : List Pagination :=
  match _h : read (compute w.limit w.offset total).next with
  | none => [compute w.limit w.offset total]
  | some v => compute w.limit w.offset total :: pagesFrom total v
termination_by total - w.offset
decreasing_by
  have next := read_eq_some _h
  simp only [compute] at next
  obtain ⟨more, same⟩ := Option.ite_none_right_eq_some.1 next
  obtain rfl := Option.some.inj same
  have step : 1 ≤ max w.limit 1 := Nat.le_max_right _ _
  dsimp only
  omega

theorem pagesFrom_last (positive : 0 < limit) (ends : total ≤ offset + limit) :
    pagesFrom total ⟨limit, offset⟩ = [compute limit offset total] := by
  have next : read (compute limit offset total).next = none := by
    rw [next_eq positive, if_neg (by omega)]
    rfl
  rw [pagesFrom.eq_def total ⟨limit, offset⟩]
  split
  · rfl
  · next v found => exact absurd (next.symm.trans found) (by simp)

theorem pagesFrom_more (positive : 0 < limit) (hl : limit < 2 ^ 64) (ht : total < 2 ^ 64)
    (more : offset + limit < total) :
    pagesFrom total ⟨limit, offset⟩ =
      compute limit offset total :: pagesFrom total ⟨limit, offset + limit⟩ := by
  have next : read (compute limit offset total).next = some ⟨limit, offset + limit⟩ := by
    rw [next_eq positive, if_pos more]
    exact read_of_fits hl (by omega)
  rw [pagesFrom.eq_def total ⟨limit, offset⟩]
  split
  · next found => exact absurd (next.symm.trans found) (by simp)
  · next v found => rw [Option.some.inj (found.symm.trans next)]

/-- **The pages from an offset on.**  The induction is on the rows that are left: a full page comes
before the pages of the others. -/
theorem pagesFrom_eq (positive : 0 < limit) (hl : limit < 2 ^ 64) (ht : total < 2 ^ 64)
    (offset : Nat) :
    pagesFrom total ⟨limit, offset⟩ = (List.range (pageCount (total - offset) limit)).map
      fun i => compute limit (offset + i * limit) total := by
  induction h : total - offset using Nat.strong_induction_on generalizing offset with
  | _ left ih =>
      by_cases more : offset + limit < total
      · have rest : total - (offset + limit) = left - limit := by omega
        have whole : pageCount left limit = pageCount (left - limit) limit + 1 :=
          pageCount_of_lt positive (by omega)
        have later (i : Nat) : offset + limit + i * limit = offset + (i + 1) * limit := by
          rw [Nat.succ_mul]
          omega
        rw [pagesFrom_more positive hl ht more, ih (left - limit) (by omega) (offset + limit) rest, whole,
          List.range_succ_eq_map, List.map_cons, List.map_map, Nat.zero_mul, Nat.add_zero]
        refine congrArg _ (List.map_congr_left fun i _ => ?_)
        rw [Function.comp, later]
      · rw [pagesFrom_last positive (by omega), pageCount_of_le positive (by omega)]
        simp

/-- The rows on the pages from an offset on are the rows that are left. -/
theorem sum_rows_pagesFrom (positive : 0 < limit) (hl : limit < 2 ^ 64) (ht : total < 2 ^ 64)
    (offset : Nat) :
    ((pagesFrom total ⟨limit, offset⟩).map rows).sum = total - offset := by
  induction h : total - offset using Nat.strong_induction_on generalizing offset with
  | _ left ih =>
      have rows : (compute limit offset total).rows = min left limit := by rw [compute, h]
      by_cases more : offset + limit < total
      · rw [pagesFrom_more positive hl ht more, List.map_cons, List.sum_cons,
          ih _ (by omega) (offset + limit) rfl, rows]
        omega
      · rw [pagesFrom_last positive (by omega), List.map_singleton, List.sum_singleton, rows]
        omega

/-! ### The partition -/

/-- The pages around one page of a result: there is one before exactly behind the first row and one after
exactly before the last rows, and the page before the one after is this page again. -/
structure Between (p : Pagination) (limit offset total : Nat) : Prop where
  prev : p.prev.isSome ↔ 0 < offset
  next : p.next.isSome ↔ offset + limit < total
  back : p.next.isSome → ∃ w, read p.next = some w ∧
    read (compute w.limit w.offset total).prev = some ⟨limit, offset⟩

/-- Pages that part a result: they start at the multiples of the limit, as many as it takes, each points to
the last of them, and each row is on one of them. -/
structure Parts (pages : List Pagination) (limit total : Nat) : Prop where
  windows : pages.map current =
    (List.range (pageCount total limit)).map fun i => ⟨limit, i * limit⟩
  last : 0 < total → ∀ p ∈ pages, read p.last = pages.getLast?.map current
  rows : (pages.map rows).sum = total

theorem between_compute (positive : 0 < limit) (hl : limit < 2 ^ 64) (ho : offset < 2 ^ 64)
    (ht : total < 2 ^ 64) : (compute limit offset total).Between limit offset total where
  prev := compute_prev
  next := compute_next positive
  back more := by
    have inside := (compute_next positive).1 more
    have next : (compute limit offset total).next = some ⟨limit, offset + limit⟩ := by
      rw [next_eq positive, if_pos inside]
    refine ⟨⟨limit, offset + limit⟩, ?_, ?_⟩
    · rw [next]
      exact read_of_fits hl (by omega)
    · rw [prev_of_next positive next]
      exact read_of_fits hl ho

theorem parts_pagesFrom (positive : 0 < limit) (hl : limit < 2 ^ 64) (ht : total < 2 ^ 64) :
    Parts (pagesFrom total ⟨limit, 0⟩) limit total where
  windows := by
    rw [pagesFrom_eq positive hl ht, List.map_map, Nat.sub_zero]
    simp [compute]
  last filled p member := by
    have below := Nat.div_mul_le_self (total - 1) limit
    have last : (pagesFrom total ⟨limit, 0⟩).getLast?.map current =
        some ⟨limit, (total - 1) / limit * limit⟩ := by
      rw [pagesFrom_eq positive hl ht, Nat.sub_zero, pageCount_eq positive filled, List.range_succ,
        List.map_append, List.map_singleton, List.getLast?_concat, Nat.zero_add]
      rfl
    rw [pagesFrom_eq positive hl ht] at member
    obtain ⟨i, -, rfl⟩ := List.mem_map.1 member
    rw [last, last_eq positive, if_pos filled]
    exact read_of_fits hl (by omega)
  rows := sum_rows_pagesFrom positive hl ht 0

/-- **Pages part a result, and no arithmetic overflows.**  For words every operation of the computation
stays in 64 bits, so that the markers are those of exact arithmetic.  With a limit of at least one the
markers lead forth and back, and those of the next pages lead from offset zero on through pages that
part the result. -/
theorem compute_partitions (limit offset total : UInt64) :
    computeInWords limit offset total =
        some (compute limit.toNat offset.toNat total.toNat) ∧
      (1 ≤ limit →
        (compute limit.toNat offset.toNat total.toNat).Between limit.toNat offset.toNat total.toNat ∧
        Parts (pagesFrom total.toNat ⟨limit.toNat, 0⟩) limit.toNat total.toNat) := by
  refine ⟨computeInWords_eq limit offset total, fun atLeast => ?_⟩
  have positive : 0 < limit.toNat := UInt64.le_iff_toNat_le.1 atLeast
  exact ⟨between_compute positive limit.toNat_lt offset.toNat_lt total.toNat_lt,
    parts_pagesFrom positive limit.toNat_lt total.toNat_lt⟩

/-- The greatest total, on pages of half the words: two pages, the second one row short. -/
theorem compute_partitions_greatest :
    (1 : UInt64) ≤ 9223372036854775808 ∧
    computeInWords 9223372036854775808 9223372036854775808 18446744073709551615 = some
      { rows := 9223372036854775807
        current := ⟨9223372036854775808, 9223372036854775808⟩
        prev := some ⟨9223372036854775808, 0⟩
        next := none
        first := ⟨9223372036854775808, 0⟩
        last := some ⟨9223372036854775808, 9223372036854775808⟩ } ∧
    (pagesFrom 18446744073709551615 ⟨9223372036854775808, 0⟩).map current =
      [⟨9223372036854775808, 0⟩, ⟨9223372036854775808, 9223372036854775808⟩] := by
  have atLeast : (1 : UInt64) ≤ 9223372036854775808 := by decide
  obtain ⟨words, parts⟩ :=
    compute_partitions 9223372036854775808 9223372036854775808 18446744073709551615
  exact ⟨atLeast, words, (parts atLeast).2.windows⟩

end Pagination

end DataAccess
