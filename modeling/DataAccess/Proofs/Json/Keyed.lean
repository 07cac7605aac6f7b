import DataAccess.Json.Keyed
/-
**Entries of keyed lists.**  What a keyed list holds after a write or a removal, entry by entry.  With
distinct keys a value is read under a key exactly when the two stand together as an entry.

Main definitions:

* `Keyed.Agree` — lists that hold the same under every key.

Main results:

* `Keyed.get?_eq_some_iff` — reading is membership;
* `Keyed.mem_of_mem_insert` — a write adds one entry at most;
* `Keyed.mem_swapErase`, `Keyed.get?_swapErase`, `Keyed.get?_erase` — what a removal leaves;
* `Keyed.get?_filter_keys` — what a choice of keys leaves;
* `Keyed.insert_absent`, `Keyed.swapErase_insert` — a new key goes last, and leaves no gap.
-/

set_option autoImplicit false

namespace DataAccess.Keyed

variable {α β : Type}

theorem mem_keys {r : Keyed α} {entry : String × α} (h : entry ∈ r) : entry.1 ∈ keys r :=
  List.mem_map.2 ⟨entry, h, rfl⟩

theorem mem_of_get? {r : Keyed α} {key : String} {v : α} (h : get? r key = some v) :
    (key, v) ∈ r := by
  induction r with
  | nil => exact absurd h (by simp)
  | cons entry rest ih =>
      obtain ⟨k, w⟩ := entry
      rw [get?_cons] at h
      by_cases hk : k = key
      · rw [if_pos hk] at h
        rw [hk, Option.some.inj h]
        exact List.mem_cons_self
      · rw [if_neg hk] at h
        exact List.mem_cons_of_mem _ (ih h)

/-- With distinct keys, reading is membership. -/
theorem get?_eq_some_iff {r : Keyed α} (distinct : (keys r).Nodup) {key : String} {v : α} :
    get? r key = some v ↔ (key, v) ∈ r := by
  refine ⟨mem_of_get?, fun h => ?_⟩
  induction r with
  | nil => exact absurd h List.not_mem_nil
  | cons entry rest ih =>
      obtain ⟨k, w⟩ := entry
      obtain ⟨new, distinct⟩ := List.nodup_cons.1 distinct
      rw [get?_cons]
      rcases List.mem_cons.1 h with he | h
      · obtain ⟨rfl, rfl⟩ := Prod.mk.inj he
        exact if_pos rfl
      · have other : k ≠ key := by
          rintro rfl
          exact absurd (mem_keys h) new
        rw [if_neg other]
        exact ih distinct h

theorem get?_append (r more : Keyed α) (key : String) :
    get? (r ++ more) key = (get? r key).or (get? more key) := by
  induction r with
  | nil => rfl
  | cons entry rest ih =>
      obtain ⟨k, v⟩ := entry
      rw [List.cons_append, get?_cons, get?_cons]
      by_cases hk : k = key
      · rw [if_pos hk, if_pos hk]
        rfl
      · rw [if_neg hk, if_neg hk]
        exact ih

theorem mem_of_mem_insert {r : Keyed α} {key : String} {v : α} {entry : String × α}
    (h : entry ∈ insert r key v) : entry ∈ r ∨ entry = (key, v) := by
  induction r with
  | nil => exact .inr (List.mem_singleton.1 h)
  | cons first rest ih =>
      obtain ⟨k, w⟩ := first
      rw [insert] at h
      by_cases hk : k = key
      · rw [if_pos hk, hk] at h
        rcases List.mem_cons.1 h with h | h
        · exact .inr h
        · exact .inl (List.mem_cons_of_mem _ h)
      · rw [if_neg hk] at h
        rcases List.mem_cons.1 h with h | h
        · exact .inl (h ▸ List.mem_cons_self)
        · exact (ih h).imp_left (List.mem_cons_of_mem _)

/-- A removal leaves the entries of the other keys. -/
theorem mem_swapErase {r : Keyed α} (distinct : (keys r).Nodup) {key : String}
    {entry : String × α} : entry ∈ swapErase r key ↔ entry ∈ r ∧ entry.1 ≠ key := by
  induction r with
  | nil => simp [swapErase]
  | cons first rest ih =>
      obtain ⟨k, v⟩ := first
      obtain ⟨new, distinct⟩ := List.nodup_cons.1 distinct
      by_cases hk : k = key
      · subst hk
        -- the last entry takes the place of the removed one, so only the order changes
        have others : ∀ e ∈ rest, e.1 ≠ k := by
          rintro e he rfl
          exact absurd (mem_keys he) new
        have left : entry ∈ swapErase ((k, v) :: rest) k ↔ entry ∈ rest := by
          rw [swapErase, if_pos rfl]
          rcases List.eq_nil_or_concat rest with rfl | ⟨init, last, rfl⟩
          · simp
          · simp [or_comm]
        rw [left]
        constructor
        · exact fun h => ⟨List.mem_cons_of_mem _ h, others entry h⟩
        · rintro ⟨h, ne⟩
          rcases List.mem_cons.1 h with rfl | h
          · exact absurd rfl ne
          · exact h
      · rw [swapErase, if_neg hk, List.mem_cons, ih distinct, List.mem_cons]
        constructor
        · rintro (rfl | ⟨h, ne⟩)
          · exact ⟨.inl rfl, hk⟩
          · exact ⟨.inr h, ne⟩
        · rintro ⟨h | h, ne⟩
          · exact .inl h
          · exact .inr ⟨h, ne⟩

/-- After a removal the other keys read as before. -/
theorem get?_swapErase {r : Keyed α} (distinct : (keys r).Nodup) (key field : String) :
    get? (swapErase r key) field = if field = key then none else get? r field := by
  apply Option.ext
  intro v
  rw [get?_eq_some_iff (nodup_keys_swapErase distinct key), mem_swapErase distinct]
  by_cases h : field = key
  · simp [h]
  · simp [h, get?_eq_some_iff distinct]

/-- A list of which some keys are kept. -/
theorem get?_filter_keys (p : String → Bool) (r : Keyed α) (key : String) :
    get? (r.filter fun entry => p entry.1) key = if p key then get? r key else none := by
  induction r with
  | nil => simp
  | cons entry rest ih =>
      obtain ⟨k, v⟩ := entry
      rw [List.filter_cons, get?_cons]
      by_cases hk : k = key
      · subst hk
        cases kept : p k with
        | true => simp
        | false => simp [ih, kept]
      · rw [if_neg hk, ← ih]
        split
        · rw [get?_cons, if_neg hk]
        · rfl

theorem get?_erase (r : Keyed α) (key field : String) :
    get? (erase r key) field = if field = key then none else get? r field := by
  rw [erase, get?_filter_keys fun k => k ≠ key]
  by_cases gone : field = key <;> simp [gone]

theorem keys_swapErase_subset {r : Keyed α} (distinct : (keys r).Nodup) {key field : String}
    (h : field ∈ keys (swapErase r key)) : field ∈ keys r ∧ field ≠ key := by
  obtain ⟨entry, member, rfl⟩ := List.mem_map.1 h
  obtain ⟨before, ne⟩ := (mem_swapErase distinct).1 member
  exact ⟨mem_keys before, ne⟩

/-- A list whose values change by their keys. -/
theorem get?_mapValues (f : String → α → β) (r : Keyed α) (key : String) :
    get? (r.map fun entry => (entry.1, f entry.1 entry.2)) key = (get? r key).map (f key) := by
  induction r with
  | nil => rfl
  | cons entry rest ih =>
      obtain ⟨k, v⟩ := entry
      rw [List.map_cons, get?_cons, get?_cons]
      by_cases hk : k = key
      · subst hk
        rw [if_pos rfl, if_pos rfl, Option.map_some]
      · rw [if_neg hk, if_neg hk]
        exact ih

/-- A key that the first part lacks is written into the second one. -/
theorem insert_append {r : Keyed α} {key : String} (absent : key ∉ keys r) (more : Keyed α)
    (value : α) : insert (r ++ more) key value = r ++ insert more key value := by
  induction r with
  | nil => rfl
  | cons entry rest ih =>
      obtain ⟨k, v⟩ := entry
      rw [keys_cons, List.mem_cons, not_or] at absent
      rw [List.cons_append, insert, if_neg (Ne.symm absent.1), ih absent.2, List.cons_append]

/-- A new key goes last. -/
theorem insert_absent {r : Keyed α} {key : String} (absent : key ∉ keys r) (value : α) :
    insert r key value = r ++ [(key, value)] := by
  have appended := insert_append absent [] value
  rwa [List.append_nil] at appended

theorem swapErase_absent {r : Keyed α} {key : String} (absent : key ∉ keys r) :
    swapErase r key = r := by
  induction r with
  | nil => rfl
  | cons entry rest ih =>
      obtain ⟨k, v⟩ := entry
      rw [keys_cons, List.mem_cons, not_or] at absent
      rw [swapErase, if_neg (Ne.symm absent.1), ih absent.2]

/-- A new key that is removed again leaves no gap. -/
theorem swapErase_insert {r : Keyed α} {key : String} (absent : key ∉ keys r) (value : α) :
    swapErase (insert r key value) key = r := by
  induction r with
  | nil => rw [insert, swapErase, if_pos rfl, List.getLast?_nil]
  | cons entry rest ih =>
      obtain ⟨k, v⟩ := entry
      rw [keys_cons, List.mem_cons, not_or] at absent
      rw [insert, if_neg (Ne.symm absent.1), swapErase, if_neg (Ne.symm absent.1), ih absent.2]

/-! ### Lists that hold the same -/

/-- Under every key the two hold the same. -/
def Agree (r r' : Keyed α) : Prop := ∀ key, get? r key = get? r' key

theorem Agree.insert {r r' : Keyed α} (same : Agree r r') (key : String) (value : α) :
    Agree (insert r key value) (insert r' key value) := by
  intro other
  by_cases here : other = key
  · rw [here, get?_insert_self, get?_insert_self]
  · rw [get?_insert_of_ne here, get?_insert_of_ne here, same other]

end DataAccess.Keyed
