/-
**Blank characters.**  Texts that arrive from callers and from backends are trimmed before they are
read as numbers, booleans, dates or names.  A character is blank when it has the Unicode property
`White_Space`, which is wider than the ASCII blanks: it holds the no-break space, the ideographic
space and the line and paragraph separators as well.

Main definitions:

* `Text.isBlank` — the characters of the property;
* `Text.trim` — a text without its leading and trailing blanks;
* `Text.trimmed` — the same on `String`.

Main results:

* `Text.isBlank_of_isWhitespace` — the blanks of the core library are blank;
* `Text.trim_eq_self` — a text that neither starts nor ends with a blank is left alone.
-/

set_option autoImplicit false

namespace DataAccess.Text

/-- The code points with the property `White_Space`, as closed ranges. -/
def blankRanges : List (Nat × Nat) :=
  [(0x0009, 0x000D), (0x0020, 0x0020), (0x0085, 0x0085), (0x00A0, 0x00A0), (0x1680, 0x1680),
   (0x2000, 0x200A), (0x2028, 0x2029), (0x202F, 0x202F), (0x205F, 0x205F), (0x3000, 0x3000)]

/-- Whether a character has the property `White_Space`. -/
def isBlank (c : Char) : Bool :=
  blankRanges.any fun (lo, hi) => decide (lo ≤ c.toNat) && decide (c.toNat ≤ hi)

theorem isBlank_of_isWhitespace {c : Char} (h : c.isWhitespace = true) : isBlank c = true := by
  simp only [Char.isWhitespace, Bool.or_eq_true, decide_eq_true_eq] at h
  rcases h with ((h | h) | h) | h <;> subst h <;> decide

/-- A text without its leading blanks. -/
def trimStart (s : List Char) : List Char := s.dropWhile isBlank

/-- A text without its leading and trailing blanks. -/
def trim (s : List Char) : List Char := (trimStart (trimStart s).reverse).reverse

@[simp] theorem trim_nil : trim [] = [] := rfl

theorem trimStart_eq_self {c : Char} {s : List Char} (h : isBlank c = false) :
    trimStart (c :: s) = c :: s := by
  simp [trimStart, h]

theorem trim_eq_self {s : List Char} (first : ∀ c ∈ s.head?, isBlank c = false)
    (last : ∀ c ∈ s.getLast?, isBlank c = false) : trim s = s := by
  have start : trimStart s = s := by
    cases s with
    | nil => rfl
    | cons c s => exact trimStart_eq_self (first c (by simp))
  rw [trim, start]
  cases h : s.reverse with
  | nil => simpa [trimStart] using congrArg List.reverse h.symm
  | cons c r =>
    have hc : isBlank c = false := last c (by
      have : s = r.reverse ++ [c] := by simpa using congrArg List.reverse h
      simp [this])
    rw [trimStart_eq_self hc, ← h, List.reverse_reverse]

/-- A string without its leading and trailing blanks. -/
def trimmed (s : String) : String := String.ofList (trim s.toList)

end DataAccess.Text
