import DataAccess.Proofs.Document.Constraints
import DataAccess.Proofs.Document.Distinct
/-
**What a key addresses.**  The store keeps keys apart as values: no two documents have the same key.  A
document is looked for with a filter, and filters compare numbers by size, as binary64 numbers.  A key
that is no number is looked for as it is kept, so it addresses one document at most.  A number addresses
all documents whose keys round to the same binary64 number, and different numbers may do that: an
integer and the float of its size, or two integers too large for 53 bits.

Main definitions:

* `MemoryStore.addressed` — the documents that a key addresses;
* `MemoryStore.SizesApart` — different numbers among the keys have different sizes.

Main results:

* `mem_addressed_number` — a number addresses the documents whose keys are of its size;
* `Apart.numbers_of_equal` — only a number equals the keys of two documents;
* `Setting.addresses_one_iff` — **a key addresses one document at most, unless two different numbers of
  one size are keys**.
-/

set_option autoImplicit false

namespace DataAccess

namespace MemoryStore

/-- The documents that a key addresses. -/
def addressed (s : MemoryStore) (name : String) (id : Json) : List Record :=
  (s.documents name).filter (Filter.accepts · (keyFilter id))

/-- Different numbers among the keys of a collection have different sizes. -/
def SizesApart (s : MemoryStore) (name : String) : Prop :=
  ∀ a ∈ s.documents name, ∀ b ∈ s.documents name, ∀ m n : Number,
    a.get? documentKey = some (.number m) → b.get? documentKey = some (.number n) →
      m.same n = false → m.compare n ≠ .eq

end MemoryStore

/-! ### Look-ups -/

theorem mem_addressed {s : MemoryStore} {name : String} {id : Json} {d : Record} :
    d ∈ s.addressed name id ↔
      d ∈ s.documents name ∧ Filter.equal (d.get? documentKey) id = true := by
  rw [MemoryStore.addressed, List.mem_filter, accepts_keyFilter]

/-- Only a number equals a number. -/
theorem Filter.equal_of_number {stored : Option Json} {n : Number} :
    equal stored (.number n) = true ↔ ∃ m, stored = some (.number m) ∧ m.compare n = .eq := by
  constructor
  · intro h
    match stored with
    | none | some .null => exact absurd h (by simp [equal, Json.isNull])
    | some (.number m) =>
        obtain ⟨k, same, size⟩ := equal_number.1 h
        exact ⟨m, rfl, by rw [Json.number.inj same, size]⟩
    | some (.bool _) | some (.string _) | some (.array _) | some (.object _) =>
        exact absurd h (by simp [equal, Json.compare?, Json.same])
  · rintro ⟨m, rfl, size⟩
    exact equal_number.2 ⟨n, rfl, size⟩

/-- A number addresses the documents whose keys round to the same binary64 number. -/
theorem mem_addressed_number {s : MemoryStore} {name : String} {n : Number} {d : Record} :
    d ∈ s.addressed name (.number n) ↔ d ∈ s.documents name ∧ ∃ m : Number,
      d.get? documentKey = some (.number m) ∧ m.toBinary64.equal n.toBinary64 = true := by
  simp only [mem_addressed, Filter.equal_of_number, Number.compare_eq_iff, Binary64.equal, beq_iff_eq]

/-- Documents that are apart are not both addressed by a key, unless theirs are different numbers of
its size. -/
theorem Apart.numbers_of_equal {rules : CollectionRules} {a b : Record} (apart : Apart rules a b)
    (keyed : a.held? documentKey ≠ none) (keyed' : b.held? documentKey ≠ none)
    (proper : (Json.object b).Proper) {id : Json}
    (first : Filter.equal (a.get? documentKey) id = true)
    (second : Filter.equal (b.get? documentKey) id = true) :
    ∃ k m n : Number, id = .number k ∧ a.get? documentKey = some (.number m) ∧
      b.get? documentKey = some (.number n) ∧ m.same n = false ∧ m.compare n = .eq := by
  obtain ⟨x, hx⟩ := Option.ne_none_iff_exists'.1 keyed
  obtain ⟨y, hy⟩ := Option.ne_none_iff_exists'.1 keyed'
  have different := apart documentKey List.mem_cons_self x y hx hy
  obtain ⟨held, filled⟩ := Record.held?_eq_some_iff.1 hx
  obtain ⟨held', filled'⟩ := Record.held?_eq_some_iff.1 hy
  rw [held] at first
  rw [held'] at second
  by_cases numeric : ∃ k, id = .number k
  · obtain ⟨k, rfl⟩ := numeric
    obtain ⟨m, is, size⟩ := Filter.equal_of_number.1 first
    obtain ⟨n, is', size'⟩ := Filter.equal_of_number.1 second
    obtain rfl := Option.some.inj is
    obtain rfl := Option.some.inj is'
    rw [Number.compare_eq_iff] at size size'
    rw [Json.same] at different
    exact ⟨k, m, n, rfl, held, held', different, Number.compare_eq_iff.2 (size.trans size'.symm)⟩
  · -- what equals such a key is the same as it, and so are the two keys then
    have other {z : Json} (equal : Filter.equal (some z) id = true) : ∀ n, z ≠ .number n := by
      rintro n rfl
      obtain ⟨k, is, -⟩ := Filter.equal_number.1 equal
      exact numeric ⟨k, is⟩
    have same := (Filter.equal_same filled (other first)).1 first
    have same' := (Filter.equal_same filled' (other second)).1 second
    have alike := (proper.get? held').same_of_same same same'
    exact absurd (alike.symm.trans different) (by simp)

/-- A list of which no two entries satisfy a predicate has one at most that does. -/
theorem length_filter_le_one {α : Type} {r : α → α → Prop} {p : α → Bool} {items : List α}
    (related : items.Pairwise r) (apart : ∀ a ∈ items, ∀ b ∈ items, r a b → p a = true → p b ≠ true) :
    (items.filter p).length ≤ 1 := by
  have kept := related.filter p
  have holds : ∀ a ∈ items.filter p, a ∈ items ∧ p a = true := fun a => List.mem_filter.1
  match found : items.filter p with
  | [] | [_] => simp
  | a :: b :: rest =>
      rw [found] at kept holds
      obtain ⟨ha, pa⟩ := holds a (by simp)
      obtain ⟨hb, pb⟩ := holds b (by simp)
      exact absurd pb (apart a ha b hb ((List.pairwise_cons.1 kept).1 b List.mem_cons_self) pa)

/-- The members of a list with one entry at most are the same. -/
theorem eq_of_length_le_one {α : Type} {items : List α} (length : items.length ≤ 1) {a b : α}
    (first : a ∈ items) (second : b ∈ items) : a = b := by
  match items with
  | [] => exact absurd first (by simp)
  | [x] => rw [List.mem_singleton.1 first, List.mem_singleton.1 second]
  | _ :: _ :: _ => exact absurd length (by simp)

/-- In a sound collection a key addresses one document at most, unless it is a number and two different
numbers of its size are keys. -/
theorem addressed_le_one {s : MemoryStore} {name : String} (sound : (s.collection name).Sound)
    {id : Json} (plain : (∀ n, id ≠ .number n) ∨ s.SizesApart name) :
    (s.addressed name id).length ≤ 1 := by
  refine length_filter_le_one sound.apart ?_
  intro a ha b hb apart first second
  rw [accepts_keyFilter] at first second
  obtain ⟨k, m, n, rfl, held, held', different, size⟩ := apart.1.numbers_of_equal
    (sound.keyed a ha) (sound.keyed b hb) (sound.proper b hb) first second
  rcases plain with other | sizes
  · exact other k rfl
  · exact sizes a ha b hb m n held held' different size

namespace Setting

open StoreCall

/-- **A key addresses one document at most, unless two different numbers of one size are keys.**
Beginning with an empty store, after any writes, whichever of them failed: a key that is no number
addresses one document at most; a number addresses exactly the documents whose keys round to the same
binary64 number; and every key addresses one document at most exactly if different numbers among the
keys of the collection round to different binary64 numbers. -/
theorem addresses_one_iff (g : Setting) {calls : List StoreCall}
    (proper : ∀ call ∈ calls, call.Proper) {w v : World} {results : List (Except NativeError Unit)}
    (empty : w.store = []) (run : (performAll g.store calls).run w = (results, v)) (name : String) :
    (∀ id : Json, (∀ n, id ≠ .number n) → (v.store.addressed name id).length ≤ 1) ∧
    (∀ (n : Number) (d : Record), d ∈ v.store.addressed name (.number n) ↔
      d ∈ v.documents name ∧ ∃ m : Number, d.get? documentKey = some (.number m) ∧
        m.toBinary64.equal n.toBinary64 = true) ∧
    ((∀ id : Json, (v.store.addressed name id).length ≤ 1) ↔ v.store.SizesApart name) := by
  have start (other : String) : (w.store.collection other).Sound := by
    rw [empty]
    exact Collection.sound_empty
  have sound := sound_run g proper start run name
  refine ⟨fun id other => addressed_le_one sound (.inl other), fun n d => mem_addressed_number,
    fun one => ?_, fun sizes id => addressed_le_one sound (.inr sizes)⟩
  intro a ha b hb m n held held' different size
  -- the first of the two keys addresses both documents, so they are one, and so are the numbers
  have first : a ∈ v.store.addressed name (.number m) :=
    mem_addressed_number.2 ⟨ha, m, held, Binary64.equal_refl _⟩
  have second : b ∈ v.store.addressed name (.number m) := by
    refine mem_addressed_number.2 ⟨hb, n, held', ?_⟩
    rw [Binary64.equal, beq_iff_eq]
    exact (Number.compare_eq_iff.1 size).symm
  obtain rfl := eq_of_length_le_one (one (.number m)) first second
  obtain rfl := Json.number.inj (Option.some.inj (held.symm.trans held'))
  exact absurd different (by simp)

/-- A coin that is kept under a key. -/
def coin (key : Json) (side : String) : Record := [(documentKey, key), ("side", .string side)]

/-- Two coins whose keys are integers one apart, the first of them 2⁵³, and one whose key is a text. -/
def tossing : List StoreCall :=
  [.insert "coins" (coin (.int 9007199254740992) "heads"),
    .insert "coins" (coin (.int 9007199254740993) "tails"),
    .insert "coins" (coin (.string "lost") "edge")]

theorem proper_tossing : ∀ call ∈ tossing, call.Proper := by
  have proper (key : Json) (value : key.Proper) (side : String) :
      (Json.object (coin key side)).Proper := by
    refine .object (by simp [Keyed.keys, coin, documentKey]) ?_
    simp only [coin, List.mem_cons, List.not_mem_nil, or_false, forall_eq_or_imp, forall_eq]
    exact ⟨value, .string side⟩
  intro call member
  simp only [tossing, List.mem_cons, List.not_mem_nil, or_false] at member
  rcases member with rfl | rfl | rfl
  · exact proper _ (.number _) "heads"
  · exact proper _ (.number _) "tails"
  · exact proper _ (.string "lost") "edge"

theorem addresses_one_lost : ∃ results v,
    (performAll tally.store tossing).run nothingStored = (results, v) ∧
      results.map Except.isOk = [true, true, true] ∧
      (∀ d, d ∈ v.store.addressed "coins" (.int 9007199254740993) ↔
        d ∈ v.documents "coins" ∧ ∃ m : Number, d.get? documentKey = some (.number m) ∧
          m.toBinary64.equal (Number.ofInt 9007199254740993).toBinary64 = true) ∧
      (v.store.addressed "coins" (.string "lost")).length ≤ 1 ∧
      ¬ v.store.SizesApart "coins" := by
  have ended : ((performAll tally.store tossing).run nothingStored).1.map Except.isOk =
      [true, true, true] := by decide +kernel
  have both : (((performAll tally.store tossing).run nothingStored).2.store.addressed "coins"
      (.int 9007199254740993)).length = 2 := by decide +kernel
  cases run : (performAll tally.store tossing).run nothingStored with
  | mk results v =>
      rw [run] at ended both
      obtain ⟨other, number, one⟩ := addresses_one_iff tally proper_tossing rfl run "coins"
      refine ⟨results, v, rfl, ended, number _, other _ (by simp), fun apart => ?_⟩
      exact absurd (one.2 apart (.int 9007199254740993)) (by simp [both])

/-- One filter accepts the coin of either integer, so a removal by the second key takes the first
coin. -/
theorem addresses_two_coins :
    (((performAll tally.store tossing).run nothingStored).2.store.addressed "coins"
      (.int 9007199254740993)).map (·.get? documentKey) =
        [some (.int 9007199254740992), some (.int 9007199254740993)] ∧
    ((performAll tally.store (tossing ++
      [.delete "coins" (keyFilter (.int 9007199254740993))])).run nothingStored).2.documents "coins" =
        [coin (.int 9007199254740993) "tails", coin (.string "lost") "edge"] := by
  exact ⟨by rfl, by rfl⟩

end Setting

end DataAccess
