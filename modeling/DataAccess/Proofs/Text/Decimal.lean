import DataAccess.Text.Digits
/-
**Written numbers.**  The decimal text of a number consists of digits only, and reading those digits
gives the number back, with or without zeros in front.  A scanner that takes the run of digits at
the start of a text therefore takes exactly a written number, provided that what follows it does not
begin with a digit.  Among numbers of one width the order of the texts is that of the numbers.

Main results:

* `Text.isDigit_of_mem_toDigits` — only digits are written;
* `Text.decimalValue_toDigits`, `Text.decimalValue_replicate_append` — a written number reads back,
  zeros in front do not count;
* `Text.digits_append` — a run of digits is read up to where something else follows;
* `Text.decimalValue_lt` — a number with `n` digits is below the `n`th power of ten;
* `Text.lt_of_decimalValue_lt` — numbers with equally many digits are ordered as their texts are.
-/

set_option autoImplicit false

namespace DataAccess.Text

/-! ### Digits -/

theorem isDigit_eq (c : Char) : isDigit c = c.isDigit := by
  simp only [isDigit, Char.isDigit]
  rfl

theorem isDigit_of_mem_toDigits {n : Nat} {c : Char} (h : c ∈ Nat.toDigits 10 n) :
    isDigit c = true := by
  rw [isDigit_eq]
  exact Nat.isDigit_of_mem_toDigits (by decide) (by decide) h

theorem digitValue_digitChar {n : Nat} (h : n < 10) : digitValue n.digitChar = n := by
  rw [digitValue]
  exact Nat.toNat_digitChar_sub_48_of_lt_ten h

/-! ### The value of a written number -/

theorem decimalValue_toDigits (n : Nat) : decimalValue (Nat.toDigits 10 n) = n := by
  induction n using Nat.strongRecOn with
  | ind n ih =>
      rcases Nat.lt_or_ge n 10 with small | large
      · rw [Nat.toDigits_of_lt_base small]
        simpa [decimalValue] using digitValue_digitChar small
      · -- the last digit is the remainder, the digits before it write the quotient
        rw [Nat.toDigits_of_base_le (by decide) large, decimalValue_append_digit,
          ih (n / 10) (by omega), digitValue_digitChar (Nat.mod_lt _ (by decide))]
        omega

theorem decimalValue_replicate_append (k : Nat) (s : List Char) :
    decimalValue (List.replicate k '0' ++ s) = decimalValue s := by
  induction k with
  | zero => rfl
  | succ k ih =>
      rw [List.replicate_succ, List.cons_append]
      exact ih

/-! ### Runs of digits -/

theorem takeWhile_digits_append {run rest : List Char} (written : ∀ c ∈ run, isDigit c = true)
    (after : ∀ c ∈ rest.head?, isDigit c = false) :
    (run ++ rest).takeWhile isDigit = run := by
  rw [List.takeWhile_append_of_pos written]
  cases rest with
  | nil => simp
  | cons c rest =>
      have stop : isDigit c = false := after c (by simp)
      simp [stop]

/-- A run of digits within the bounds is read whole when no digit follows it. -/
theorem digits_append {least : Nat} {most : Option Nat} {run rest : List Char}
    (written : ∀ c ∈ run, isDigit c = true) (after : ∀ c ∈ rest.head?, isDigit c = false)
    (long : least ≤ run.length) (short : ∀ n ∈ most, run.length ≤ n) :
    digits least most (run ++ rest) = some (run, rest) := by
  simp only [digits, takeWhile_digits_append written after]
  cases most with
  | none =>
      rw [if_neg (Nat.not_lt.2 long)]
      simp
  | some n =>
      have whole : run.take n = run := List.take_of_length_le (short n rfl)
      simp only [whole]
      rw [if_neg (Nat.not_lt.2 long)]
      simp

/-! ### The size of a number -/

theorem digitValue_lt {c : Char} (h : isDigit c = true) : digitValue c < 10 := by
  simp only [isDigit, Bool.and_eq_true, decide_eq_true_eq] at h
  have high : c.toNat ≤ 57 := h.2
  have zero : '0'.toNat = 48 := rfl
  rw [digitValue, zero]
  omega

/-- A number with `n` digits is below the `n`th power of ten. -/
theorem decimalValue_lt {s : List Char} (h : ∀ c ∈ s, isDigit c = true) :
    decimalValue s < 10 ^ s.length := by
  induction hs : s.reverse generalizing s with
  | nil =>
      rw [List.reverse_eq_nil_iff.1 hs]
      decide
  | cons c more ih =>
      have split : s = more.reverse ++ [c] := by
        rw [← List.reverse_reverse s, hs, List.reverse_cons]
      subst split
      have before := ih (fun d hd => h d (List.mem_append_left _ hd))
        (List.reverse_reverse more)
      have last := digitValue_lt (h c (by simp))
      rw [decimalValue_append_digit, List.length_append, List.length_singleton, Nat.pow_succ]
      omega

theorem isDigit_of_mem_digits {least : Nat} {most : Option Nat} {s read rest : List Char}
    (h : digits least most s = some (read, rest)) : ∀ c ∈ read, isDigit c = true := by
  unfold digits at h
  obtain ⟨-, he⟩ := Option.ite_none_left_eq_some.1 h
  simp only [Option.some.injEq, Prod.mk.injEq] at he
  obtain ⟨rfl, -⟩ := he
  intro c hc
  have run : c ∈ s.takeWhile isDigit := by
    cases most with
    | none => exact hc
    | some n => exact List.mem_of_mem_take hc
  exact List.all_eq_true.1 List.all_takeWhile c run

/-- The number that is read with a bound on its digits is below that power of ten. -/
theorem decimalValue_digits_lt {least n : Nat} {s read rest : List Char}
    (h : digits least (some n) s = some (read, rest)) : decimalValue read < 10 ^ n :=
  Nat.lt_of_lt_of_le (decimalValue_lt (isDigit_of_mem_digits h))
    (Nat.pow_le_pow_right (by decide) (digits_length h).2)

/-! ### Numbers in order -/

/-- The first digit counts by the power of ten of how many follow it. -/
theorem decimalValue_cons (c : Char) (s : List Char) :
    decimalValue (c :: s) = digitValue c * 10 ^ s.length + decimalValue s := by
  have behind (n : Nat) : s.foldl (fun n c => n * 10 + digitValue c) n =
      n * 10 ^ s.length + decimalValue s := by
    induction s generalizing n with
    | nil => simp [decimalValue]
    | cons d s ih =>
        rw [decimalValue, List.foldl_cons, List.foldl_cons, ih, ih, List.length_cons, Nat.pow_succ]
        grind
  rw [decimalValue, List.foldl_cons, Nat.zero_mul, Nat.zero_add, behind]

/-- Texts of one length are ordered as their beginnings of one length are. -/
theorem append_lt_append {s t : List Char} (length : s.length = t.length) (less : s < t)
    (x y : List Char) : s ++ x < t ++ y := by
  induction s generalizing t with
  | nil =>
      rw [List.length_eq_zero_iff.1 length.symm] at less
      exact absurd less (List.lt_irrefl [])
  | cons c s ih =>
      cases t with
      | nil => exact absurd length (by simp)
      | cons d t =>
          rw [List.cons_append, List.cons_append, List.cons_lt_cons_iff]
          rcases List.cons_lt_cons_iff.1 less with less | ⟨same, less⟩
          · exact .inl less
          · exact .inr ⟨same, ih (Nat.succ.inj length) less⟩

/-- Numbers with equally many digits are ordered as their texts are. -/
theorem lt_of_decimalValue_lt {s t : List Char} (digits : ∀ c ∈ s, isDigit c = true)
    (digits' : ∀ c ∈ t, isDigit c = true) (length : s.length = t.length)
    (less : decimalValue s < decimalValue t) : s < t := by
  induction s generalizing t with
  | nil =>
      rw [List.length_eq_zero_iff.1 length.symm] at less
      exact absurd less (Nat.lt_irrefl _)
  | cons c s ih =>
      cases t with
      | nil => exact absurd length (by simp)
      | cons d t =>
          rw [List.forall_mem_cons] at digits digits'
          have lengths : s.length = t.length := Nat.succ.inj length
          rw [decimalValue_cons, decimalValue_cons, lengths] at less
          rw [List.cons_lt_cons_iff]
          rcases Nat.lt_trichotomy c.toNat d.toNat with before | same | after
          · exact .inl before
          · obtain rfl := Char.toNat_inj.1 same
            exact .inr ⟨rfl, ih digits.2 digits'.2 lengths (Nat.lt_of_add_lt_add_left less)⟩
          · -- the first digit outweighs all that follow the other one
            have greater : digitValue d + 1 ≤ digitValue c := by
              have least : 48 ≤ d.toNat := by
                have bounds := digits'.1
                simp only [isDigit, Bool.and_eq_true, decide_eq_true_eq] at bounds
                exact bounds.1
              have zero : '0'.toNat = 48 := rfl
              rw [digitValue, digitValue, zero]
              omega
            have outweighed := Nat.mul_le_mul_right (10 ^ t.length) greater
            have below := decimalValue_lt digits'.2
            rw [Nat.add_mul, Nat.one_mul] at outweighed
            omega

end DataAccess.Text
