import Mathlib.Data.List.TakeDrop
import Mathlib.Data.List.TakeWhile
import DataAccess.Text.Split
/-
**Texts that are cut.**  A text is split at every separator, and cut at the first or at the last one.
All of them look at the same pieces: what is cut off at the end is the last piece, and what stands
before it splits into the others.

Main results:

* `Text.toList_join` — the characters of joined texts;
* `Text.split_join`, `Text.split_intercalate` — texts with separators between them split one after the
  other;
* `Text.mem_split` — no piece holds the separator;
* `Text.splitOn_inj`, `Text.of_splitOn_prefix` — what the pieces say of the texts;
* `Text.cut_append` — a text is cut at the first separator;
* `Text.cutLast_eq_none_iff`, `Text.cutLast_dotted` — a text is cut at the last separator, if it has one;
* `Text.splitOn_of_cutLast` — **a cut text splits into the pieces before the cut and the last one**.
-/

set_option autoImplicit false

namespace DataAccess.Text

/-- Two texts with a separator between them split one after the other. -/
theorem split_join (separator : Char) (s rest : List Char) :
    split separator (s ++ separator :: rest) = split separator s ++ split separator rest := by
  induction s with
  | nil =>
      rw [List.nil_append, split.eq_2, if_pos rfl]
      rfl
  | cons c s ih =>
      rw [List.cons_append, split, split]
      by_cases same : c = separator
      · rw [if_pos same, if_pos same, ih]
        rfl
      · rw [if_neg same, if_neg same, ih]
        cases pieces : split separator s with
        | nil => exact absurd pieces (split_ne_nil separator s)
        | cons piece others => rfl

/-- The characters of joined texts: the first one, and each further one behind the separator. -/
theorem toList_join (separator first : String) (rest : List String) :
    (join separator (first :: rest)).toList =
      first.toList ++ rest.flatMap fun item => separator.toList ++ item.toList := by
  rw [join]
  induction rest generalizing first with
  | nil => rw [String.intercalate_singleton, List.flatMap_nil, List.append_nil]
  | cons next rest ih =>
      rw [String.intercalate_cons_cons, String.toList_append, String.toList_append, ih next,
        List.flatMap_cons, List.append_assoc, List.append_assoc]

/-- Joined pieces are the first one, and each further one behind a separator. -/
theorem intercalate_cons (separator : Char) (first : List Char) (rest : List (List Char)) :
    [separator].intercalate (first :: rest) = first ++ rest.flatMap (separator :: ·) := by
  induction rest generalizing first with
  | nil => simp
  | cons next rest ih => simp [List.intercalate_cons_cons, ih]

/-- Pieces that are joined split into the pieces. -/
theorem split_intercalate {separator : Char} {items : List (List Char)} (some : items ≠ [])
    (free : ∀ item ∈ items, separator ∉ item) :
    split separator ([separator].intercalate items) = items := by
  induction items with
  | nil => exact absurd rfl some
  | cons item rest ih =>
      obtain ⟨here, there⟩ := List.forall_mem_cons.1 free
      cases rest with
      | nil => simpa [List.intercalate] using split_of_not_mem here
      | cons next rest =>
          rw [List.intercalate_cons_cons, List.append_assoc, List.singleton_append, split_join,
            split_of_not_mem here, ih (List.cons_ne_nil next rest) there]
          rfl

/-- No piece holds the separator. -/
theorem mem_split {separator : Char} {s piece : List Char} (h : piece ∈ split separator s) :
    separator ∉ piece := by
  induction s generalizing piece with
  | nil =>
      rw [split_nil, List.mem_singleton] at h
      rw [h]
      exact List.not_mem_nil
  | cons c s ih =>
      rw [split] at h
      split at h
      · rcases List.mem_cons.1 h with rfl | h
        · exact List.not_mem_nil
        · exact ih h
      · next other =>
        cases pieces : split separator s with
        | nil => exact absurd pieces (split_ne_nil separator s)
        | cons first others =>
            rw [pieces] at h ih
            rcases List.mem_cons.1 h with rfl | h
            · intro inside
              rcases List.mem_cons.1 inside with same | inside
              · exact other same.symm
              · exact ih List.mem_cons_self inside
            · exact ih (List.mem_cons_of_mem _ h)

theorem splitOn_ne_nil (separator : Char) (s : String) : splitOn separator s ≠ [] := by
  rw [splitOn, ne_eq, List.map_eq_nil_iff]
  exact split_ne_nil separator s.toList

theorem mem_splitOn {separator : Char} {s piece : String} (h : piece ∈ splitOn separator s) :
    separator ∉ piece.toList := by
  obtain ⟨letters, member, rfl⟩ := List.mem_map.1 h
  rw [String.toList_ofList]
  exact mem_split member

/-- A text without the separator is one piece. -/
theorem splitOn_of_not_mem {separator : Char} {s : String} (h : separator ∉ s.toList) :
    splitOn separator s = [s] := by
  rw [splitOn, split_of_not_mem h, List.map_singleton, String.ofList_toList]

/-- A dotted text splits into the pieces of its parts. -/
theorem splitOn_dotted (before after : String) :
    splitOn '.' (before ++ "." ++ after) = splitOn '.' before ++ splitOn '.' after := by
  have letters : (before ++ "." ++ after).toList = before.toList ++ '.' :: after.toList := by
    rw [String.toList_append, String.toList_append, List.append_assoc]
    rfl
  rw [splitOn, letters, split_join, List.map_append]
  rfl

/-! ### Texts by their pieces -/

/-- Two lists of pieces are joined one after the other. -/
theorem intercalate_append (separator : Char) {xs ys : List (List Char)} (left : xs ≠ [])
    (right : ys ≠ []) : [separator].intercalate (xs ++ ys) =
      [separator].intercalate xs ++ separator :: [separator].intercalate ys := by
  induction xs with
  | nil => exact absurd rfl left
  | cons piece rest ih =>
      cases rest with
      | nil =>
          obtain ⟨first, others, rfl⟩ := List.exists_cons_of_ne_nil right
          simp [List.intercalate, List.intersperse]
      | cons next rest =>
          have later := ih (by simp)
          simp only [List.intercalate, List.cons_append, List.intersperse, List.flatten_cons] at later ⊢
          rw [later]
          simp

theorem toList_splitOn (separator : Char) (s : String) :
    (splitOn separator s).map String.toList = split separator s.toList := by
  simp [splitOn, Function.comp_def]

/-- A text whose pieces come first in another one is this text, or is followed in it by a dot. -/
theorem of_splitOn_prefix {s t : String} (h : splitOn '.' s <+: splitOn '.' t) :
    t = s ∨ ∃ rest, t = s ++ "." ++ rest := by
  obtain ⟨more, pieces⟩ := h
  have letters := congrArg (List.map String.toList) pieces
  rw [List.map_append, toList_splitOn, toList_splitOn] at letters
  have whole := intercalate_split '.' t.toList
  rw [← letters] at whole
  cases more with
  | nil =>
      rw [List.map_nil, List.append_nil, intercalate_split] at whole
      exact .inl (String.toList_inj.1 whole.symm)
  | cons piece more =>
      rw [intercalate_append '.' (split_ne_nil '.' _) (by simp), intercalate_split] at whole
      refine .inr ⟨String.ofList (['.'].intercalate ((piece :: more).map String.toList)), ?_⟩
      rw [← String.toList_inj, ← whole]
      simp

/-- Texts of the same pieces are the same. -/
theorem splitOn_inj {s t : String} (h : splitOn '.' s = splitOn '.' t) : s = t := by
  have letters := congrArg (List.map String.toList) h
  rw [toList_splitOn, toList_splitOn] at letters
  rw [← String.toList_inj, ← intercalate_split '.' s.toList, letters, intercalate_split]

/-! ### The first and the last cut -/

/-- A scan up to a separator passes the letters before it. -/
theorem passed_of_not_mem {separator : Char} {s : List Char} (free : separator ∉ s) :
    ∀ c ∈ s, decide (c ≠ separator) = true := by
  intro c member
  refine decide_eq_true ?_
  rintro rfl
  exact free member

/-- A scan up to a separator stops at the first one. -/
theorem span_append {separator : Char} {before : List Char} (free : separator ∉ before)
    (after : List Char) : (before ++ separator :: after).span (fun c => decide (c ≠ separator)) =
      (before, separator :: after) := by
  have stop : decide (separator ≠ separator) = false := decide_eq_false fun ne => ne rfl
  rw [List.span_eq_takeWhile_dropWhile, List.takeWhile_append_of_pos (passed_of_not_mem free),
    List.dropWhile_append_of_pos (passed_of_not_mem free), List.takeWhile_cons, List.dropWhile_cons,
    stop]
  simp

theorem cut_append {separator : Char} {before : List Char} (free : separator ∉ before)
    (after : List Char) : cut separator (String.ofList (before ++ separator :: after)) =
      some (String.ofList before, String.ofList after) := by
  rw [cut, String.toList_ofList, span_append free]

/-- A scan from the end stops at the last separator, if there is one. -/
theorem span_reverse (separator : Char) (s : List Char) :
    (separator ∉ s ∧ s.reverse.span (fun c => decide (c ≠ separator)) = (s.reverse, [])) ∨
      ∃ before after, s = before ++ separator :: after ∧ separator ∉ after ∧
        s.reverse.span (fun c => decide (c ≠ separator)) =
          (after.reverse, separator :: before.reverse) := by
  by_cases found : separator ∈ s.reverse
  · obtain ⟨after, before, turned, free⟩ := List.eq_append_cons_of_mem found
    refine .inr ⟨before.reverse, after.reverse, ?_, by simpa using free, ?_⟩
    · rw [← List.reverse_reverse s, turned]
      simp
    · rw [turned, span_append free, List.reverse_reverse, List.reverse_reverse]
  · refine .inl ⟨by simpa using found, ?_⟩
    rw [List.span_eq_takeWhile_dropWhile, List.takeWhile_eq_self_iff.2 (passed_of_not_mem found),
      List.dropWhile_eq_nil_iff.2 (passed_of_not_mem found)]

/-- Only a text without the separator is not cut. -/
theorem cutLast_eq_none_iff {separator : Char} {s : String} :
    cutLast separator s = none ↔ separator ∉ s.toList := by
  rw [cutLast]
  rcases span_reverse separator s.toList with ⟨free, span⟩ | ⟨before, after, letters, -, span⟩
  · rw [span]
    simpa using free
  · rw [span, letters]
    simp

/-- What follows the last dot is cut off. -/
theorem cutLast_dotted {field : String} (free : '.' ∉ field.toList) (path : String) :
    cutLast '.' (path ++ "." ++ field) = some (path, field) := by
  have letters : (path ++ "." ++ field).toList.reverse =
      field.toList.reverse ++ '.' :: path.toList.reverse := by
    simp
  have passed : '.' ∉ field.toList.reverse := by simpa using free
  rw [cutLast, letters, span_append passed]
  simp

/-- **A cut text splits into the pieces before the cut and the last one.** -/
theorem splitOn_of_cutLast {separator : Char} {s before after : String}
    (h : cutLast separator s = some (before, after)) :
    splitOn separator s = splitOn separator before ++ [after] := by
  rw [cutLast] at h
  rcases span_reverse separator s.toList with ⟨-, span⟩ | ⟨front, back, letters, free, span⟩
  · rw [span] at h
    exact absurd h (by simp)
  · rw [span] at h
    simp only [List.reverse_reverse, Option.some.injEq, Prod.mk.injEq] at h
    obtain ⟨rfl, rfl⟩ := h
    rw [splitOn, letters, split_join, split_of_not_mem free, List.map_append, List.map_singleton,
      splitOn, String.toList_ofList]

end DataAccess.Text
