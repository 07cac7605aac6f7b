/-
**Quoting by doubling.**  A quoted text stands between two delimiters, and every closing delimiter
inside it is written twice.  Reading goes up to the first closing delimiter that is not doubled.

Main definitions:

* `Text.double`, `Text.undouble` — every occurrence of a character written twice, and pairs of it
  written once;
* `Text.enclose` — a text between delimiters;
* `Text.readQuoted` — the text of a quoted form and what follows it.

Main results:

* `Text.undouble_double` — undoubling recovers the text;
* `Text.readQuoted_enclose` — reading an enclosed text recovers the text and the rest.
-/

set_option autoImplicit false

namespace DataAccess.Text

/-- A text with every `quote` written twice. -/
def double (quote : Char) : List Char → List Char
  | [] => []
  | c :: rest => if c = quote then c :: c :: double quote rest else c :: double quote rest

/-- A text with every pair of `quote` written once. -/
def undouble (quote : Char) : List Char → List Char
  | a :: b :: rest =>
    if a = quote ∧ b = quote then quote :: undouble quote rest else a :: undouble quote (b :: rest)
  | rest => rest

theorem double_cons_of_ne {quote c : Char} (h : c ≠ quote) (rest : List Char) :
    double quote (c :: rest) = c :: double quote rest := by
  simp [double, h]

theorem undouble_cons_of_ne {quote c : Char} (h : c ≠ quote) (rest : List Char) :
    undouble quote (c :: rest) = c :: undouble quote rest := by
  cases rest with
  | nil => rfl
  | cons d rest => simp [undouble, h]

theorem undouble_double (quote : Char) (s : List Char) : undouble quote (double quote s) = s := by
  induction s with
  | nil => rfl
  | cons c rest ih =>
    by_cases h : c = quote
    · subst h
      simp [double, undouble, ih]
    · rw [double_cons_of_ne h, undouble_cons_of_ne h, ih]

/-- A text between delimiters, the closing one doubled inside. -/
def enclose (opening closing : Char) (s : List Char) : List Char :=
  opening :: double closing s ++ [closing]

/-- The text before the first closing delimiter that is not doubled, and what follows it. -/
def readQuoted (closing : Char) : List Char → Option (List Char × List Char)
  | [] => none
  | c :: rest =>
    if c = closing then
      match rest with
      | d :: more =>
        if d = closing then (readQuoted closing more).map fun (s, rest) => (closing :: s, rest)
        else some ([], d :: more)
      | [] => some ([], [])
    else (readQuoted closing rest).map fun (s, rest) => (c :: s, rest)

theorem readQuoted_enclose {closing : Char} (s rest : List Char)
    (h : rest.head? ≠ some closing) :
    readQuoted closing (double closing s ++ closing :: rest) = some (s, rest) := by
  induction s with
  | nil =>
    cases rest with
    | nil => simp [double, readQuoted]
    | cons d more =>
      have hd : d ≠ closing := by simpa using h
      simp [double, readQuoted, hd]
  | cons c more ih =>
    by_cases hc : c = closing
    · subst hc
      simp [double, readQuoted, ih]
    · rw [double_cons_of_ne hc, List.cons_append, readQuoted.eq_def]
      simp [hc, ih]

end DataAccess.Text
