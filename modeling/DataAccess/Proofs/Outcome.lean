import DataAccess.Error
import Mathlib.Data.List.Forall2
/-
**Outcomes step by step.**  Most operations are pipelines that stop at the first failure.  A pipeline
that succeeds did so at every step, and a list that is handled item by item is handled as its parts
are.

Main results:

* `Outcome.bind_eq_ok`, `Outcome.bind_eq_error` — a sequence of two steps succeeds exactly when both
  do, and otherwise fails as the one that fails;
* `Outcome.mapM_cons_eq_ok`, `Outcome.foldlM_cons_eq_ok`, `Outcome.exists_of_foldlM_eq_error` — the same
  for the items of a list;
* `Outcome.mapM_eq_ok_of_forall₂`, `Outcome.forall₂_of_mapM`, `Outcome.exists_mapM_eq_ok_iff`,
  `Outcome.mapM_eq_error_of_first` — a list is handled when all of its items are, and fails as the first
  one that does;
* `liftExcept_bind` — steps without effects among steps that have some.
-/

set_option autoImplicit false

namespace DataAccess

namespace Outcome

variable {ε α β γ : Type}

theorem bind_eq_ok {x : Except ε α} {f : α → Except ε β} {b : β} :
    x >>= f = .ok b ↔ ∃ a, x = .ok a ∧ f a = .ok b := by
  cases x with
  | error e => simp [bind, Except.bind]
  | ok a => simp [bind, Except.bind]

theorem bind_eq_error {x : Except ε α} {f : α → Except ε β} {e : ε} :
    x >>= f = .error e ↔ x = .error e ∨ ∃ a, x = .ok a ∧ f a = .error e := by
  cases x with
  | error e' => simp [bind, Except.bind]
  | ok a => simp [bind, Except.bind]

theorem map_eq_ok {x : Except ε α} {f : α → β} {b : β} :
    f <$> x = .ok b ↔ ∃ a, x = .ok a ∧ f a = b := by
  cases x with
  | error e => simp [Functor.map, Except.map]
  | ok a => simp [Functor.map, Except.map]

/-- A step behind which nothing can fail succeeds exactly when the sequence does. -/
theorem exists_bind_iff {x : Except ε α} {f : α → Except ε β} (total : ∀ a, ∃ b, f a = .ok b) :
    (∃ b, x >>= f = .ok b) ↔ ∃ a, x = .ok a := by
  constructor
  · rintro ⟨b, both⟩
    obtain ⟨a, first, -⟩ := bind_eq_ok.1 both
    exact ⟨a, first⟩
  · rintro ⟨a, rfl⟩
    exact total a

theorem mapM_nil_eq_ok {f : α → Except ε β} {bs : List β} :
    ([] : List α).mapM f = .ok bs ↔ bs = [] := by
  simp [pure, Except.pure, eq_comm]

theorem mapM_cons_eq_ok {f : α → Except ε β} {a : α} {rest : List α} {bs : List β} :
    (a :: rest).mapM f = .ok bs ↔
      ∃ b more, f a = .ok b ∧ rest.mapM f = .ok more ∧ bs = b :: more := by
  rw [List.mapM_cons, bind_eq_ok]
  constructor
  · rintro ⟨b, hb, h⟩
    obtain ⟨more, hm, he⟩ := bind_eq_ok.1 h
    exact ⟨b, more, hb, hm, (Except.ok.inj he).symm⟩
  · rintro ⟨b, more, hb, hm, rfl⟩
    exact ⟨b, hb, bind_eq_ok.2 ⟨more, hm, rfl⟩⟩

theorem length_of_mapM {f : α → Except ε β} {xs : List α} {bs : List β} (h : xs.mapM f = .ok bs) :
    bs.length = xs.length := by
  induction xs generalizing bs with
  | nil => rw [mapM_nil_eq_ok.1 h, List.length_nil, List.length_nil]
  | cons a rest ih =>
      obtain ⟨b, more, -, hm, rfl⟩ := mapM_cons_eq_ok.1 h
      rw [List.length_cons, List.length_cons, ih hm]

/-- Each result of a list handled item by item comes from one of the items. -/
theorem of_mem_mapM {f : α → Except ε β} {xs : List α} {bs : List β} (h : xs.mapM f = .ok bs)
    {b : β} (hb : b ∈ bs) : ∃ a ∈ xs, f a = .ok b := by
  induction xs generalizing bs with
  | nil =>
      rw [mapM_nil_eq_ok.1 h] at hb
      exact absurd hb List.not_mem_nil
  | cons a rest ih =>
      obtain ⟨b', more, ha, hm, rfl⟩ := mapM_cons_eq_ok.1 h
      rcases List.mem_cons.1 hb with rfl | hb
      · exact ⟨a, List.mem_cons_self, ha⟩
      · obtain ⟨c, hc, hf⟩ := ih hm hb
        exact ⟨c, List.mem_cons_of_mem _ hc, hf⟩

/-- A list is handled when each of its items is. -/
theorem mapM_eq_ok_of_forall₂ {f : α → Except ε β} {xs : List α} {bs : List β}
    (each : List.Forall₂ (fun a b => f a = .ok b) xs bs) : xs.mapM f = .ok bs := by
  induction each with
  | nil => rfl
  | cons first _ ih => exact mapM_cons_eq_ok.2 ⟨_, _, first, ih, rfl⟩

/-- The results of a list are those of its items. -/
theorem forall₂_of_mapM {f : α → Except ε β} {xs : List α} {bs : List β}
    (h : xs.mapM f = .ok bs) : List.Forall₂ (fun a b => f a = .ok b) xs bs := by
  induction xs generalizing bs with
  | nil =>
      rw [mapM_nil_eq_ok.1 h]
      exact .nil
  | cons a rest ih =>
      obtain ⟨b, more, first, others, rfl⟩ := mapM_cons_eq_ok.1 h
      exact .cons first (ih others)

theorem exists_mapM_eq_ok_iff {f : α → Except ε β} {xs : List α} :
    (∃ bs, xs.mapM f = .ok bs) ↔ ∀ a ∈ xs, ∃ b, f a = .ok b := by
  induction xs with
  | nil => simp [pure, Except.pure]
  | cons a rest ih =>
      rw [List.forall_mem_cons, ← ih]
      constructor
      · rintro ⟨_, h⟩
        obtain ⟨b, more, first, others, -⟩ := mapM_cons_eq_ok.1 h
        exact ⟨⟨b, first⟩, more, others⟩
      · rintro ⟨⟨b, first⟩, more, others⟩
        exact ⟨_, mapM_cons_eq_ok.2 ⟨b, more, first, others, rfl⟩⟩

/-- A list fails as the first item that does. -/
theorem mapM_eq_error_of_first {f : α → Except ε β} {before after : List α} {a : α} {e : ε}
    (fine : ∀ b ∈ before, ∃ c, f b = .ok c) (failed : f a = .error e) :
    (before ++ a :: after).mapM f = .error e := by
  induction before with
  | nil =>
      rw [List.nil_append, List.mapM_cons, bind_eq_error]
      exact .inl failed
  | cons b rest ih =>
      obtain ⟨⟨c, here⟩, there⟩ := List.forall_mem_cons.1 fine
      rw [List.cons_append, List.mapM_cons, bind_eq_error]
      refine .inr ⟨c, here, bind_eq_error.2 (.inl (ih there))⟩

theorem foldlM_cons_eq_ok {f : β → α → Except ε β} {b c : β} {a : α} {rest : List α} :
    (a :: rest).foldlM f b = .ok c ↔ ∃ b', f b a = .ok b' ∧ rest.foldlM f b' = .ok c := by
  rw [List.foldlM_cons, bind_eq_ok]

/-- A list fails as one of its items does. -/
theorem exists_of_foldlM_eq_error {f : β → α → Except ε β} {b : β} {e : ε} {items : List α}
    (h : items.foldlM f b = .error e) : ∃ b', ∃ a ∈ items, f b' a = .error e := by
  induction items generalizing b with
  | nil => exact absurd h (by simp [pure, Except.pure])
  | cons a rest ih =>
      rw [List.foldlM_cons, bind_eq_error] at h
      rcases h with first | ⟨b', -, later⟩
      · exact ⟨b, a, List.mem_cons_self, first⟩
      · obtain ⟨b'', a', member, failed⟩ := ih later
        exact ⟨b'', a', List.mem_cons_of_mem _ member, failed⟩

theorem toOption_eq_some {x : Except ε α} {a : α} : x.toOption = some a ↔ x = .ok a := by
  cases x <;> simp [Except.toOption]

/-- Whether an outcome is a certain failure. -/
def failsWith [DecidableEq ε] (x : Except ε α) (e : ε) : Bool :=
  match x with
  | .error e' => e' = e
  | .ok _ => false

theorem failsWith_iff [DecidableEq ε] {x : Except ε α} {e : ε} :
    failsWith x e = true ↔ x = .error e := by
  cases x <;> simp [failsWith]

end Outcome

/-! ### Outcomes among effects -/

section Lifted

variable {m : Type → Type} [Monad m] [LawfulMonad m] {ε α β : Type}

/-- Nothing comes after a failure. -/
theorem liftExcept_error_bind (e : ε) (f : α → ExceptT ε m β) :
    (liftExcept (.error e : Except ε α) >>= f : ExceptT ε m β) =
      liftExcept (.error e : Except ε β) := by
  refine ExceptT.ext ?_
  simp only [liftExcept, ExceptT.run_bind, ExceptT.run_throw, pure_bind]

/-- A sequence of two steps without effects has none. -/
theorem liftExcept_bind (x : Except ε α) (f : α → Except ε β) :
    (liftExcept (x >>= f) : ExceptT ε m β) = liftExcept x >>= fun a => liftExcept (f a) := by
  cases x with
  | error e => exact (liftExcept_error_bind e _).symm
  | ok a => exact (pure_bind a fun a => (liftExcept (f a) : ExceptT ε m β)).symm

end Lifted

end DataAccess
