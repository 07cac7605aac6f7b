/-
**Keyed lists.**  Records and the tables of names in this library keep their entries in the order of
insertion: the order decides messages, statements and inferred columns, so it is part of the data.
A keyed list is a list of key–value pairs in which every operation below keeps keys distinct.

Main definitions:

* `Keyed` — entries in insertion order;
* `Keyed.get?`, `Keyed.contains`, `Keyed.keys` — the views;
* `Keyed.insert` — a present key keeps its place, a new key goes last;
* `Keyed.erase` — removal that keeps the order of the rest;
* `Keyed.swapErase` — removal that moves the last entry into the gap.

Main results:

* `Keyed.get?_insert_self`, `Keyed.get?_insert_of_ne` — reading after a write;
* `Keyed.keys_insert` — the keys after a write;
* `Keyed.get?_eq_none_iff` — a key is absent exactly when it is not among the keys;
* `Keyed.nodup_keys_insert`, `Keyed.nodup_keys_erase`, `Keyed.nodup_keys_swapErase`,
  `Keyed.nodup_keys_ofEntries` — every operation keeps keys distinct.
-/

set_option autoImplicit false

namespace DataAccess

/-- Entries in the order of insertion. -/
abbrev Keyed (α : Type) := List (String × α)

namespace Keyed

variable {α : Type}

/-- The value under a key: the first entry that carries it. -/
def get? : Keyed α → String → Option α
  | [], _ => none
  | (k, v) :: rest, key => if k = key then some v else get? rest key

/-- Whether a key is present. -/
def contains (r : Keyed α) (key : String) : Bool := (get? r key).isSome

/-- The keys in order. -/
def keys (r : Keyed α) : List String := r.map Prod.fst

/-- Writes a value: a present key keeps its place, a new key goes last. -/
def insert : Keyed α → String → α → Keyed α
  | [], key, value => [(key, value)]
  | (k, v) :: rest, key, value =>
    if k = key then (k, value) :: rest else (k, v) :: insert rest key value

/-- Removes a key and keeps the order of the other entries. -/
def erase (r : Keyed α) (key : String) : Keyed α := r.filter fun entry => entry.1 ≠ key

/-- Removes a key and moves the last entry into its place. -/
def swapErase : Keyed α → String → Keyed α
  | [], _ => []
  | (k, v) :: rest, key =>
    if k = key then
      match rest.getLast? with
      | none => []
      | some last => last :: rest.dropLast
    else (k, v) :: swapErase rest key

/-- Entries written one after another into an empty list: a repeated key keeps its first place and
its last value. -/
def ofEntries (entries : List (String × α)) : Keyed α :=
  entries.foldl (fun r entry => insert r entry.1 entry.2) []

@[simp] theorem get?_nil (key : String) : get? ([] : Keyed α) key = none := rfl

@[simp] theorem get?_cons (k : String) (v : α) (rest : Keyed α) (key : String) :
    get? ((k, v) :: rest) key = if k = key then some v else get? rest key := rfl

@[simp] theorem get?_insert_self (r : Keyed α) (key : String) (value : α) :
    get? (insert r key value) key = some value := by
  induction r with
  | nil => simp [insert]
  | cons e rest ih =>
    obtain ⟨k, v⟩ := e
    by_cases h : k = key <;> simp [insert, h, ih]

theorem get?_insert_of_ne {key other : String} (h : other ≠ key) (r : Keyed α) (value : α) :
    get? (insert r key value) other = get? r other := by
  induction r with
  | nil => simp [insert, h.symm]
  | cons e rest ih =>
    obtain ⟨k, v⟩ := e
    by_cases hk : k = key
    · subst hk
      simp [insert, h.symm]
    · by_cases ho : k = other
      · subst ho
        simp [insert, hk]
      · simp [insert, hk, ho, ih]

@[simp] theorem keys_nil : keys ([] : Keyed α) = [] := rfl

@[simp] theorem keys_cons (e : String × α) (rest : Keyed α) :
    keys (e :: rest) = e.1 :: keys rest := rfl

theorem keys_insert (r : Keyed α) (key : String) (value : α) :
    keys (insert r key value) = if key ∈ keys r then keys r else keys r ++ [key] := by
  induction r with
  | nil => rfl
  | cons e rest ih =>
    obtain ⟨k, v⟩ := e
    by_cases h : k = key
    · simp [insert, h]
    · have h' : ¬ key = k := fun e => h e.symm
      by_cases m : key ∈ keys rest <;> simp [insert, h, h', ih, m]

theorem get?_eq_none_iff {r : Keyed α} {key : String} : get? r key = none ↔ key ∉ keys r := by
  induction r with
  | nil => simp
  | cons e rest ih =>
    obtain ⟨k, v⟩ := e
    by_cases h : k = key
    · simp [h]
    · have h' : ¬ key = k := fun e => h e.symm
      simp [h, h', ih]

@[simp] theorem contains_iff {r : Keyed α} {key : String} :
    contains r key = true ↔ key ∈ keys r := by
  rw [contains, Option.isSome_iff_ne_none, ne_eq, get?_eq_none_iff, Classical.not_not]

/-! ### Distinct keys -/

theorem nodup_keys_insert {r : Keyed α} (h : (keys r).Nodup) (key : String) (value : α) :
    (keys (insert r key value)).Nodup := by
  rw [keys_insert]
  split
  · exact h
  · next absent =>
    refine List.nodup_append.2 ⟨h, by simp, fun a ha b hb => ?_⟩
    rintro rfl
    exact absent (List.mem_singleton.1 hb ▸ ha)

theorem nodup_keys_erase {r : Keyed α} (h : (keys r).Nodup) (key : String) :
    (keys (erase r key)).Nodup :=
  h.sublist (List.filter_sublist.map Prod.fst)

theorem keys_swapErase_perm (r : Keyed α) (key : String) :
    (keys (swapErase r key)).Perm ((keys r).erase key) := by
  induction r with
  | nil => simp [swapErase]
  | cons e rest ih =>
    obtain ⟨k, v⟩ := e
    by_cases hk : k = key
    · subst hk
      rcases List.eq_nil_or_concat rest with rfl | ⟨init, last, rfl⟩
      · simp [swapErase]
      · have rotated : ([last.1] ++ keys init).Perm (keys init ++ [last.1]) := List.perm_append_comm
        simpa [swapErase, keys] using rotated
    · simpa [swapErase, hk, List.erase_cons] using ih

theorem nodup_keys_swapErase {r : Keyed α} (h : (keys r).Nodup) (key : String) :
    (keys (swapErase r key)).Nodup :=
  (keys_swapErase_perm r key).nodup_iff.2 (h.erase key)

theorem nodup_keys_ofEntries (entries : List (String × α)) : (keys (ofEntries entries)).Nodup := by
  unfold ofEntries
  suffices ∀ r : Keyed α, (keys r).Nodup →
      (keys (entries.foldl (fun r entry => insert r entry.1 entry.2) r)).Nodup from
    this [] List.nodup_nil
  induction entries with
  | nil => exact fun r h => h
  | cons entry rest ih => exact fun r h => ih _ (nodup_keys_insert h entry.1 entry.2)

end Keyed

end DataAccess
