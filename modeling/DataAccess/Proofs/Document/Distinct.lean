import DataAccess.Proofs.Document.Keys
import DataAccess.Proofs.Json.Same
/-
**Fields that tell documents apart.**  Filters compare loosely: numbers by size, whatever their
notation.  Values that equal a third one still equal each other, so where no two documents hold equal
values in a field, one of them at most equals a value that is asked for.

Main definitions:

* `DistinctIn` — no two documents hold equal values in a field.

Main results:

* `Filter.equal_number`, `Filter.equal_same` — what equals a number and what equals any other value;
* `Filter.equal_of_equal` — values that equal a third one equal each other;
* `DistinctIn.unique` — **one document at most equals a value that is not null**;
* `distinctIn_of_texts` — documents that hold different texts hold no equal values.
-/

set_option autoImplicit false

namespace DataAccess

/-! ### Values that equal a third one -/

theorem Number.compare_eq_iff {m n : Number} :
    m.compare n = .eq ↔ m.toBinary64.key = n.toBinary64.key := by
  rw [Number.compare, Binary64.compare, Int.compare_eq_eq]

/-- Numbers that are the same compare as equal. -/
theorem Number.compare_of_same {m n : Number} (same : m.same n = true) : m.compare n = .eq := by
  rw [compare_eq_iff]
  cases m <;> cases n <;> simp_all [Number.same, Binary64.equal, toBinary64]

/-- A number equals the numbers of its size. -/
theorem Filter.equal_number {m : Number} {v : Json} :
    Filter.equal (some (.number m)) v = true ↔ ∃ n, v = .number n ∧ m.compare n = .eq := by
  cases v with
  | number n =>
      simp only [Filter.equal, Json.compare?, Json.same, Bool.or_eq_true, beq_iff_eq,
        Option.some.injEq, Json.number.injEq, exists_eq_left']
      exact ⟨fun either => either.elim id Number.compare_of_same, .inl⟩
  | _ => simp [Filter.equal, Json.compare?, Json.same]

/-- A value that is neither null nor a number equals what is the same as it. -/
theorem Filter.equal_same {x v : Json} (filled : x.isNull = false) (other : ∀ n, x ≠ .number n) :
    Filter.equal (some x) v = true ↔ x.same v = true := by
  refine ⟨fun equal => ?_, equal_of_same filled⟩
  cases x with
  | null => exact absurd filled (by simp [Json.isNull])
  | number n => exact absurd rfl (other n)
  | string s =>
      rw [(equal_text_iff s v).1 equal]
      simp [Json.same]
  | bool b =>
      cases v with
      | bool c => cases b <;> cases c <;> simp_all [Filter.equal, Json.compare?, Json.same]
      | _ => simp_all [Filter.equal, Json.compare?, Json.same]
  | array items => simpa [Filter.equal, Json.compare?] using equal
  | object fields => simpa [Filter.equal, Json.compare?] using equal

/-- Values that equal a third one equal each other. -/
theorem Filter.equal_of_equal {x y v : Json} (filled : x.isNull = false) (filled' : y.isNull = false)
    (proper : y.Proper) (first : Filter.equal (some x) v = true)
    (second : Filter.equal (some y) v = true) : Filter.equal (some x) y = true := by
  cases y with
  | number n =>
      obtain ⟨k, rfl, size⟩ := equal_number.1 second
      cases x with
      | number m =>
          obtain ⟨k', same, size'⟩ := equal_number.1 first
          obtain rfl := Json.number.inj same
          refine equal_number.2 ⟨n, rfl, ?_⟩
          rw [Number.compare_eq_iff] at size size' ⊢
          exact size'.trans size.symm
      | null => exact absurd filled (by simp [Json.isNull])
      | _ =>
          have other := (equal_same filled (by simp)).1 first
          exact absurd other (by simp [Json.same])
  | null => exact absurd filled' (by simp [Json.isNull])
  | _ =>
      have own := (equal_same filled' (by simp)).1 second
      cases x with
      | number m =>
          obtain ⟨k, rfl, -⟩ := equal_number.1 first
          exact absurd own (by simp [Json.same])
      | _ =>
          have other := (equal_same filled (by simp)).1 first
          exact equal_of_same filled (proper.same_of_same other own)

/-! ### Documents -/

/-- No two documents hold equal values in a field. -/
def DistinctIn (docs : List Record) (field : String) : Prop :=
  docs.Pairwise fun a b => ∀ v w, a.held? field = some v → b.held? field = some w →
    Filter.equal (some v) w = false

/-- What equals a value that is not null is held. -/
theorem held?_of_equal {d : Record} {field : String} {v : Json} (filled : v.isNull = false)
    (equal : Filter.equal (d.get? field) v = true) :
    ∃ x, d.held? field = some x ∧ Filter.equal (some x) v = true := by
  cases found : d.get? field with
  | none => simp [found, Filter.equal, filled] at equal
  | some x =>
      rw [found] at equal
      cases null : x.isNull with
      | true => simp [Json.isNull_iff.1 null, Filter.equal, filled] at equal
      | false => exact ⟨x, Record.held?_eq_some_iff.2 ⟨found, null⟩, equal⟩

/-- **Of documents that hold distinct values, one at most equals a value that is not null.** -/
theorem DistinctIn.unique {docs : List Record} {field : String} (distinct : DistinctIn docs field)
    (proper : ∀ d ∈ docs, (Json.object d).Proper) {v : Json} (filled : v.isNull = false)
    {a b : Record} (ha : a ∈ docs) (hb : b ∈ docs) (first : Filter.equal (a.get? field) v = true)
    (second : Filter.equal (b.get? field) v = true) : a = b := by
  obtain ⟨x, hx, left⟩ := held?_of_equal filled first
  obtain ⟨y, hy, right⟩ := held?_of_equal filled second
  -- whichever of the two comes first, it equals the other one
  have either {p q : Json} {c d : Record} (hp : c.held? field = some p)
      (hq : d.held? field = some q) (there : d ∈ docs) (hpv : Filter.equal (some p) v = true)
      (hqv : Filter.equal (some q) v = true) : Filter.equal (some p) q = true := by
    obtain ⟨-, filled⟩ := Record.held?_eq_some_iff.1 hp
    obtain ⟨found, filled'⟩ := Record.held?_eq_some_iff.1 hq
    exact Filter.equal_of_equal filled filled' ((proper d there).get? found) hpv hqv
  obtain ⟨i, hi, rfl⟩ := List.getElem_of_mem ha
  obtain ⟨j, hj, rfl⟩ := List.getElem_of_mem hb
  rw [DistinctIn, List.pairwise_iff_getElem] at distinct
  rcases Nat.lt_trichotomy i j with before | rfl | after
  · have apart := distinct i j hi hj before x y hx hy
    exact absurd ((either hx hy hb left right).symm.trans apart) (by simp)
  · rfl
  · have apart := distinct j i hj hi after y x hy hx
    exact absurd ((either hy hx ha right left).symm.trans apart) (by simp)

/-- An object of texts is proper. -/
theorem proper_of_texts {d : Record} (distinct : (Keyed.keys d).Nodup)
    (texts : ∀ entry ∈ d, entry.2.asString? ≠ none) : (Json.object d).Proper := by
  refine .object distinct ?_
  rintro ⟨key, v⟩ member
  have text := texts (key, v) member
  cases v with
  | string t => exact .string t
  | _ => exact absurd rfl text

/-- Documents that hold different texts hold no equal values. -/
theorem distinctIn_of_texts {docs : List Record} {field : String}
    (texts : ∀ d ∈ docs, (d.get? field).bind Json.asString? ≠ none)
    (different : docs.Pairwise fun a b =>
      (a.get? field).bind Json.asString? ≠ (b.get? field).bind Json.asString?) :
    DistinctIn docs field := by
  refine different.imp_of_mem ?_
  intro a b ha _ ne v w hv hw
  have text := texts a ha
  obtain ⟨found, -⟩ := Record.held?_eq_some_iff.1 hv
  obtain ⟨found', -⟩ := Record.held?_eq_some_iff.1 hw
  rw [found] at text
  cases v with
  | string t =>
      rw [Bool.eq_false_iff]
      intro equal
      obtain rfl := (equal_text_iff t w).1 equal
      exact ne (by rw [found, found'])
  | _ => exact absurd rfl text

end DataAccess
