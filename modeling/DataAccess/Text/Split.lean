/-
**Splitting and joining.**  Lists of names arrive as one text with a separator between the items:
`a,b,c` for columns, `users.posts.title` for paths.  Splitting is defined on lists of characters,
where it can be reasoned about, and carried over to `String`.

Main definitions:

* `Text.split` — the pieces between the occurrences of a separator;
* `Text.splitOn` — the same on `String`;
* `Text.cut` — a text before and after the first separator;
* `Text.cutLast` — a text before and after the last separator;
* `Text.occursIn` — whether a text occurs in another.

Main results:

* `Text.split_ne_nil` — there is always at least one piece;
* `Text.split_of_not_mem` — a text without the separator is one piece;
* `Text.intercalate_split` — joining the pieces with the separator gives the text back;
* `Text.occursIn_append` — a text occurs wherever it was put.
-/

set_option autoImplicit false

namespace DataAccess.Text

/-- The pieces of a text between the occurrences of `separator`. -/
def split (separator : Char) : List Char → List (List Char)
  | [] => [[]]
  | c :: rest =>
    if c = separator then [] :: split separator rest
    else
      match split separator rest with
      | [] => [[c]]
      | piece :: pieces => (c :: piece) :: pieces

@[simp] theorem split_nil (separator : Char) : split separator [] = [[]] := rfl

@[simp] theorem split_ne_nil (separator : Char) (s : List Char) : split separator s ≠ [] := by
  cases s with
  | nil => simp
  | cons c rest =>
    unfold split
    split
    · simp
    · split <;> simp

theorem split_of_not_mem {separator : Char} {s : List Char} (h : separator ∉ s) :
    split separator s = [s] := by
  induction s with
  | nil => rfl
  | cons c rest ih =>
    have hc : c ≠ separator := fun e => h (by simp [e])
    have hr : separator ∉ rest := fun m => h (List.mem_cons_of_mem _ m)
    simp [split, hc, ih hr]

theorem intercalate_split (separator : Char) (s : List Char) :
    [separator].intercalate (split separator s) = s := by
  induction s with
  | nil => rfl
  | cons c rest ih =>
    unfold split
    split
    · next hc =>
      cases hp : split separator rest with
      | nil => exact absurd hp (split_ne_nil _ _)
      | cons piece pieces =>
        rw [hp] at ih
        simp [List.intercalate, List.intersperse] at ih ⊢
        simp [hc, ih]
    · cases hp : split separator rest with
      | nil => exact absurd hp (split_ne_nil _ _)
      | cons piece pieces =>
        rw [hp] at ih
        cases pieces with
        | nil => simpa [List.intercalate] using ih
        | cons next pieces => simpa [List.intercalate, List.intersperse] using ih

/-- The pieces of a string between the occurrences of `separator`. -/
def splitOn (separator : Char) (s : String) : List String :=
  (split separator s.toList).map String.ofList

/-- A text before and after the first occurrence of `separator`, if there is one. -/
def cut (separator : Char) (s : String) : Option (String × String) :=
  match s.toList.span (· ≠ separator) with
  | (_, []) => none
  | (before, _ :: after) => some (String.ofList before, String.ofList after)

/-- A text before and after the last occurrence of `separator`, if there is one. -/
def cutLast (separator : Char) (s : String) : Option (String × String) :=
  match s.toList.reverse.span (· ≠ separator) with
  | (_, []) => none
  | (after, _ :: before) => some (String.ofList before.reverse, String.ofList after.reverse)

/-- Whether a text occurs in another. -/
def occursIn (needle : List Char) : List Char → Bool
  | [] => needle.isEmpty
  | c :: rest => needle.isPrefixOf (c :: rest) || occursIn needle rest

theorem occursIn_append (before needle after : List Char) :
    occursIn needle (before ++ needle ++ after) = true := by
  induction before with
  | nil =>
    cases needle with
    | nil => cases after <;> simp [occursIn]
    | cons c rest => simp [occursIn]
  | cons c before ih => simpa [occursIn] using Or.inr (by simpa using ih)

/-- The items of a list in one text, with `separator` between neighbours. -/
def join (separator : String) (items : List String) : String := separator.intercalate items

end DataAccess.Text
