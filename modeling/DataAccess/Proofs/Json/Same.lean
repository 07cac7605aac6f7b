import Mathlib.Data.List.Perm.Subperm
import DataAccess.Proofs.Json.Keyed
import DataAccess.Json.Basic
/-
**Equality of values is symmetric.**  Two objects are the same when each entry of the first has its
counterpart in the second and there are as many.  That says nothing of the second's entries if a key
may repeat; where the keys of every object are distinct it is an equality in both directions.

Main definitions:

* `Json.Proper` — a value whose objects, however deep, have distinct keys.

Main results:

* `Keyed.keys_subset_symm` — as many distinct keys, none of them missing, are the same keys;
* `Json.Proper.same_comm` — **equality of proper values is symmetric**;
* `Json.Proper.same_of_same` — values that are the same as a third one are the same;
* `Json.Proper.insert`, `Json.Proper.swapErase` — a write of a proper value and a removal keep an object
  proper.
-/

set_option autoImplicit false

namespace DataAccess

/-- As many distinct keys, none of which is missing from the others, are all of these. -/
theorem Keyed.keys_subset_symm {α : Type} {xs ys : Keyed α} (distinct : (keys xs).Nodup)
    (length : xs.length = ys.length) (held : ∀ key ∈ keys xs, key ∈ keys ys) :
    ∀ key ∈ keys ys, key ∈ keys xs := by
  have lengths : (keys ys).length ≤ (keys xs).length := by
    simp [keys, length]
  have perm := (List.subperm_of_subset distinct held).perm_of_length_le lengths
  intro key member
  exact perm.mem_iff.2 member

theorem Number.same_comm (m n : Number) : m.same n = n.same m := by
  cases m with
  | integer i _ =>
      cases n with
      | integer j _ => exact Bool.beq_comm
      | float y => rfl
  | float x =>
      cases n with
      | integer j _ => rfl
      | float y => exact Binary64.equal_comm x y

namespace Json

/-- A value whose objects, however deep, have distinct keys. -/
inductive Proper : Json → Prop
  | null : Proper .null
  | bool (b : Bool) : Proper (.bool b)
  | number (n : Number) : Proper (.number n)
  | string (s : String) : Proper (.string s)
  | array {items : List Json} (each : ∀ v ∈ items, Proper v) : Proper (.array items)
  | object {fields : Record} (distinct : (Keyed.keys fields).Nodup)
      (each : ∀ entry ∈ fields, Proper entry.2) : Proper (.object fields)

/-! ### Equality entry by entry -/

/-- Each entry has an equal counterpart under its key. -/
theorem sameFields_iff {xs ys : Record} :
    sameFields xs ys = true ↔
      ∀ entry ∈ xs, ∃ w, Keyed.get? ys entry.1 = some w ∧ entry.2.same w = true := by
  induction xs with
  | nil => simp [sameFields]
  | cons entry rest ih =>
      obtain ⟨key, v⟩ := entry
      rw [sameFields, Bool.and_eq_true, ih, List.forall_mem_cons]
      cases found : Keyed.get? ys key with
      | none => simp
      | some w => simp

/-- Items that are the same one by one are so in both directions, if each of them is. -/
theorem sameItems_symm {xs ys : List Json} (right : ∀ v ∈ ys, v.Proper)
    (each : ∀ v ∈ xs, ∀ w : Json, w.Proper → v.same w = true → w.same v = true)
    (h : sameItems xs ys = true) : sameItems ys xs = true := by
  induction xs generalizing ys with
  | nil =>
      cases ys with
      | nil => rfl
      | cons _ _ => exact absurd h (by simp [sameItems])
  | cons x rest ih =>
      cases ys with
      | nil => exact absurd h (by simp [sameItems])
      | cons y others =>
          rw [sameItems, Bool.and_eq_true] at h ⊢
          constructor
          · exact each x List.mem_cons_self y (right y List.mem_cons_self) h.1
          · refine ih ?_ ?_ h.2
            · intro v member
              exact right v (List.mem_cons_of_mem _ member)
            · intro v member
              exact each v (List.mem_cons_of_mem _ member)

/-- Objects with distinct keys and as many entries that have their counterparts are the same in both
directions, if the entries are. -/
theorem sameFields_symm {xs ys : Record} (distinct : (Keyed.keys xs).Nodup)
    (distinct' : (Keyed.keys ys).Nodup) (right : ∀ entry ∈ ys, entry.2.Proper)
    (each : ∀ entry ∈ xs, ∀ w : Json, w.Proper → entry.2.same w = true → w.same entry.2 = true)
    (length : xs.length = ys.length) (h : sameFields xs ys = true) : sameFields ys xs = true := by
  rw [sameFields_iff] at h ⊢
  have held : ∀ key ∈ Keyed.keys xs, key ∈ Keyed.keys ys := by
    intro key member
    obtain ⟨entry, there, rfl⟩ := List.mem_map.1 member
    obtain ⟨w, found, -⟩ := h entry there
    have counterpart := Keyed.mem_keys (Keyed.mem_of_get? found)
    exact counterpart
  rintro ⟨key, w⟩ member
  -- the key is one of the first object as well, and what stands there has this very counterpart
  have there := Keyed.keys_subset_symm distinct length held key (Keyed.mem_keys member)
  obtain ⟨⟨key', v⟩, first, rfl⟩ := List.mem_map.1 there
  obtain ⟨counterpart, found, equal⟩ := h (key', v) first
  have same_entry := (Keyed.get?_eq_some_iff distinct').2 member
  obtain rfl : counterpart = w := Option.some.inj (found.symm.trans same_entry)
  refine ⟨v, (Keyed.get?_eq_some_iff distinct).2 first, ?_⟩
  exact each (key', v) first counterpart (right _ member) equal

/-- What a proper value is the same as is the same as the value. -/
theorem Proper.same_symm {a b : Json} (ha : a.Proper) (hb : b.Proper) (h : a.same b = true) :
    b.same a = true := by
  induction ha generalizing b with
  | null =>
      cases hb with
      | null => rfl
      | _ => exact absurd h (by simp [same])
  | bool x =>
      cases hb with
      | bool y =>
          rw [same, beq_iff_eq] at h ⊢
          exact h.symm
      | _ => exact absurd h (by simp [same])
  | number m =>
      cases hb with
      | number n =>
          rw [same] at h ⊢
          rwa [Number.same_comm]
      | _ => exact absurd h (by simp [same])
  | string x =>
      cases hb with
      | string y =>
          rw [same, beq_iff_eq] at h ⊢
          exact h.symm
      | _ => exact absurd h (by simp [same])
  | array _ ih =>
      cases hb with
      | array right =>
          rw [same] at h ⊢
          refine sameItems_symm right ?_ h
          intro v member w
          exact ih v member
      | _ => exact absurd h (by simp [same])
  | object distinct _ ih =>
      cases hb with
      | object distinct' right =>
          rw [same, Bool.and_eq_true, beq_iff_eq] at h ⊢
          refine ⟨h.1.symm, sameFields_symm distinct distinct' right ?_ h.1 h.2⟩
          intro entry member w
          exact ih entry member
      | _ => exact absurd h (by simp [same])

/-- **Equality of proper values is symmetric.** -/
theorem Proper.same_comm {a b : Json} (ha : a.Proper) (hb : b.Proper) : a.same b = b.same a := by
  rw [Bool.eq_iff_iff]
  constructor
  · exact ha.same_symm hb
  · exact hb.same_symm ha

/-! ### Values that are the same as a third one -/

theorem sameItems_of_sameItems {xs ys vs : List Json} (first : sameItems xs vs = true)
    (second : sameItems ys vs = true) (each : ∀ y ∈ ys, ∀ {x v : Json},
      x.same v = true → y.same v = true → x.same y = true) : sameItems xs ys = true := by
  induction ys generalizing xs vs with
  | nil =>
      cases vs with
      | nil =>
          cases xs with
          | nil => rfl
          | cons _ _ => exact absurd first (by simp [sameItems])
      | cons _ _ => exact absurd second (by simp [sameItems])
  | cons y others ih =>
      cases vs with
      | nil => exact absurd second (by simp [sameItems])
      | cons v vs =>
          cases xs with
          | nil => exact absurd first (by simp [sameItems])
          | cons x xs =>
              rw [sameItems, Bool.and_eq_true] at first second ⊢
              refine ⟨each y List.mem_cons_self first.1 second.1, ih first.2 second.2 ?_⟩
              intro w member
              exact each w (List.mem_cons_of_mem _ member)

theorem sameFields_of_sameFields {xs ys vs : Record} (distinct : (Keyed.keys ys).Nodup)
    (first : sameFields xs vs = true) (second : sameFields ys vs = true)
    (length : ys.length = vs.length) (each : ∀ entry ∈ ys, ∀ {x v : Json},
      x.same v = true → entry.2.same v = true → x.same entry.2 = true) :
    sameFields xs ys = true := by
  rw [sameFields_iff] at first second ⊢
  have held : ∀ key ∈ Keyed.keys ys, key ∈ Keyed.keys vs := by
    intro key member
    obtain ⟨entry, there, rfl⟩ := List.mem_map.1 member
    obtain ⟨w, found, -⟩ := second entry there
    have counterpart := Keyed.mem_keys (Keyed.mem_of_get? found)
    exact counterpart
  rintro ⟨key, x⟩ member
  obtain ⟨v, found, equal⟩ := first (key, x) member
  -- as many distinct keys, so the third object has no key that is missing here
  have there : key ∈ Keyed.keys ys :=
    Keyed.keys_subset_symm distinct length held key (Keyed.mem_keys (Keyed.mem_of_get? found))
  obtain ⟨⟨key', y⟩, entry, rfl⟩ := List.mem_map.1 there
  obtain ⟨v', found', equal'⟩ := second (key', y) entry
  obtain rfl : v' = v := Option.some.inj (found'.symm.trans found)
  exact ⟨y, (Keyed.get?_eq_some_iff distinct).2 entry, each (key', y) entry equal equal'⟩

/-- What is the same as a value is the same as a proper value that is the same as it. -/
theorem Proper.same_of_same {y : Json} (hy : y.Proper) {x v : Json} (first : x.same v = true)
    (second : y.same v = true) : x.same y = true := by
  induction hy generalizing x v with
  | null => cases v <;> cases x <;> simp_all [same]
  | bool b => cases v <;> cases x <;> simp_all [same]
  | number n =>
      cases v with
      | number l =>
          cases x with
          | number m =>
              rw [same] at first second ⊢
              cases l <;> cases m <;> cases n <;> simp_all [Number.same, Binary64.equal]
          | _ => exact absurd first (by simp [same])
      | _ => exact absurd second (by simp [same])
  | string s => cases v <;> cases x <;> simp_all [same]
  | array _ ih =>
      cases v with
      | array vs =>
          cases x with
          | array xs =>
              rw [same] at first second ⊢
              exact sameItems_of_sameItems first second ih
          | _ => exact absurd first (by simp [same])
      | _ => exact absurd second (by simp [same])
  | object distinct _ ih =>
      cases v with
      | object vs =>
          cases x with
          | object xs =>
              rw [same, Bool.and_eq_true, beq_iff_eq] at first second ⊢
              exact ⟨first.1.trans second.1.symm,
                sameFields_of_sameFields distinct first.2 second.2 second.1 ih⟩
          | _ => exact absurd first (by simp [same])
      | _ => exact absurd second (by simp [same])

/-! ### Proper objects -/

theorem Proper.single (key : String) {v : Json} (value : v.Proper) :
    (Json.object [(key, v)]).Proper := by
  refine .object (by simp) ?_
  intro entry member
  rw [List.mem_singleton.1 member]
  exact value

/-- A write of a proper value keeps an object proper. -/
theorem Proper.insert {fields : Record} (proper : (Json.object fields).Proper) (key : String)
    {v : Json} (value : v.Proper) : (Json.object (Keyed.insert fields key v)).Proper := by
  cases proper with
  | object distinct each =>
      refine .object (Keyed.nodup_keys_insert distinct key v) ?_
      intro entry member
      rcases Keyed.mem_of_mem_insert member with member | rfl
      · exact each entry member
      · exact value

/-- A removal keeps an object proper. -/
theorem Proper.swapErase {fields : Record} (proper : (Json.object fields).Proper) (key : String) :
    (Json.object (Keyed.swapErase fields key)).Proper := by
  cases proper with
  | object distinct each =>
      refine .object (Keyed.nodup_keys_swapErase distinct key) ?_
      intro entry member
      exact each entry ((Keyed.mem_swapErase distinct).1 member).1

/-- What is read from a proper object is proper. -/
theorem Proper.get? {fields : Record} (proper : (Json.object fields).Proper) {key : String}
    {v : Json} (found : Keyed.get? fields key = some v) : v.Proper := by
  cases proper with
  | object _ each => exact each (key, v) (Keyed.mem_of_get? found)

end Json

end DataAccess
