import Mathlib.Logic.Function.Basic
import DataAccess.Error
/-
**Operations side by side.**  An operation is a tree of steps on a state that others work on as well.
Each step takes place at once, and what comes next depends on what it found.  Clients take turns in any
order.  If each of them only looks at the part of the state that matters, up to one step that changes it
and ends the operation, then any run changes that part as if the operations had taken place one after
another, in the order of those steps.

Main definitions:

* `Process`, `Process.atomic` — an operation step by step, and one that is a single step;
* `Process.alone` — all steps at once;
* `Process.run` — clients that take turns;
* `Process.Keeps`, `Call.Reads` — steps that leave a part of the state as it is;
* `Process.Commits` — steps that change it once, at the end;
* `Process.InOrder` — operations one after another.

Main results:

* `Process.alone_bind` — the steps of a sequence are those of its parts;
* `Process.run_map` — clients that go on with their results take the same turns;
* `Process.Keeps.bind`, `Call.Reads.bind`, `Call.Reads.commits` — what a sequence keeps and changes;
* `Process.run_inOrder` — **clients that change a part of the state once do so one after another**.
-/

set_option autoImplicit false

namespace DataAccess

/-- An operation as a tree of steps: the effect of the next one, and how it goes on from the state that
it found. -/
inductive Process (σ α : Type) : Type
  | done (a : α)
  | step (effect : σ → σ) (next : σ → Process σ α)

namespace Process

variable {σ α β ν ι : Type}

/-- Steps that go on with other steps. -/
def bind : Process σ α → (α → Process σ β) → Process σ β
  | done a, f => f a
  | step effect next, f => step effect fun w => (next w).bind f

instance : Monad (Process σ) where
  pure := done
  bind := bind

theorem step_bind (effect : σ → σ) (next : σ → Process σ α) (f : α → Process σ β) :
    step effect next >>= f = step effect fun w => next w >>= f := rfl

theorem map_done (f : α → β) (a : α) : f <$> (done a : Process σ α) = done (f a) := rfl

theorem map_step (f : α → β) (effect : σ → σ) (next : σ → Process σ α) :
    f <$> step effect next = step effect fun w => f <$> next w := rfl

theorem id_map_eq (p : Process σ α) : id <$> p = p := by
  induction p with
  | done a => rfl
  | step effect next ih => exact congrArg (step effect) (funext ih)

theorem bind_bind_eq {γ : Type} (p : Process σ α) (f : α → Process σ β) (g : β → Process σ γ) :
    p >>= f >>= g = p >>= fun a => f a >>= g := by
  induction p with
  | done a => rfl
  | step effect next ih => exact congrArg (step effect) (funext ih)

instance : LawfulMonad (Process σ) := LawfulMonad.mk' _ id_map_eq (fun _ _ => rfl) bind_bind_eq

/-- What goes on with its result is done if it is done itself. -/
theorem exists_of_map_eq_done {f : α → β} {p : Process σ α} {b : β} (h : f <$> p = done b) :
    ∃ a, p = done a ∧ f a = b := by
  cases p with
  | done a => exact ⟨a, rfl, done.inj h⟩
  | step effect next => exact absurd h (by simp [map_step])

/-- An operation that takes place at once. -/
def atomic (x : StateM σ α) : Process σ α := step (fun w => (x w).2) fun w => done (x w).1

/-- The result, if no step is left. -/
def result? : Process σ α → Option α
  | done a => some a
  | step _ _ => none

/-- What ends with a result that passes a test has returned. -/
theorem exists_eq_done {x : Process σ (Outcome α)} {p : α → Bool}
    (h : (x.result?.any fun result => result.toOption.any p) = true) :
    ∃ a, x = done (.ok a) ∧ p a = true := by
  match x, h with
  | done (.ok a), h => exact ⟨a, rfl, h⟩

/-! ### All steps at once -/

/-- All steps one after another, with no other step between them. -/
def alone : Process σ α → StateM σ α
  | done a => pure a
  | step effect next => fun w => (next w).alone (effect w)

/-- The steps of a sequence are those of its parts. -/
theorem alone_bind (p : Process σ α) (f : α → Process σ β) :
    (p >>= f).alone = p.alone >>= fun a => (f a).alone := by
  induction p with
  | done a => rfl
  | step effect next ih =>
      funext w
      rw [step_bind, alone]
      exact congrFun (ih w) (effect w)

/-! ### Turns -/

variable [DecidableEq ι]

/-- Clients that take turns: what each of them has left to do, and the state. -/
def run : List ι → (ι → Process σ α) → σ → (ι → Process σ α) × σ
  | [], clients, w => (clients, w)
  | i :: turns, clients, w =>
    match clients i with
    | done _ => run turns clients w
    | step effect next => run turns (Function.update clients i (next w)) (effect w)

/-- Clients that go on with their results take the same turns. -/
theorem run_map (f : α → β) (turns : List ι) (clients : ι → Process σ α) (w : σ) :
    run turns (fun i => f <$> clients i) w =
      (fun i => f <$> (run turns clients w).1 i, (run turns clients w).2) := by
  induction turns generalizing clients w with
  | nil => rfl
  | cons i turns ih =>
      cases turn : clients i with
      | done a => simp only [run, turn, map_done, ih]
      | step effect next =>
          have updated : Function.update (fun j => f <$> clients j) i (f <$> next w) =
              fun j => f <$> Function.update clients i (next w) j := by
            funext j
            by_cases here : j = i
            · subst here
              simp
            · simp [here]
          simp only [run, turn, map_step, updated, ih]

/-- A client that is done stays so. -/
theorem run_of_done {clients : ι → Process σ α} {i : ι} {a : α} (ended : clients i = done a)
    (turns : List ι) (w : σ) : (run turns clients w).1 i = done a := by
  induction turns generalizing clients w with
  | nil => exact ended
  | cons j turns ih =>
      cases turn : clients j with
      | done b =>
          simp only [run, turn]
          exact ih ended w
      | step effect next =>
          have other : i ≠ j := by
            rintro rfl
            exact absurd (ended.symm.trans turn) (by simp)
          simp only [run, turn]
          refine ih ?_ (effect w)
          rw [Function.update_of_ne other, ended]

/-- It has its result in the end. -/
theorem result_of_run {clients : ι → Process σ α} {i : ι} {a b : α} {turns : List ι} {w : σ}
    (ended : clients i = done a) (ends : (run turns clients w).1 i = done b) : a = b :=
  done.inj ((run_of_done ended turns w).symm.trans ends)

/-! ### Steps that leave a part of the state -/

variable (inv : σ → Prop) (view : σ → ν)

/-- From the states of an invariant, every step keeps it and leaves a part of the state as it is, and
the result is as `post` says. -/
def Keeps (post : α → Prop) : Process σ α → Prop
  | done a => post a
  | step effect next => ∀ w, inv w →
      inv (effect w) ∧ view (effect w) = view w ∧ (next w).Keeps post

/-- From the states of an invariant, every step keeps it.  All of them leave a part of the state as it
is, but for one that ends the operation.  No other step does so successfully. -/
def Commits (commit : α → ν → ν → Prop) : Process σ (Outcome α) → Prop
  | done result => ∀ a, result ≠ .ok a
  | step effect next => ∀ w, inv w → inv (effect w) ∧
      (view (effect w) = view w ∧ (next w).Commits commit ∨
        ∃ result, next w = done result ∧
          ∀ a, result = .ok a → commit a (view w) (view (effect w)))

variable {inv view}

theorem Keeps.bind {post : α → Prop} {post' : β → Prop} {p : Process σ α} {f : α → Process σ β}
    (hp : p.Keeps inv view post) (hf : ∀ a, post a → (f a).Keeps inv view post') :
    (p >>= f).Keeps inv view post' := by
  induction p with
  | done a => exact hf a hp
  | step effect next ih =>
      intro w holds
      obtain ⟨kept, same, later⟩ := hp w holds
      exact ⟨kept, same, ih w later⟩

/-- What only looks before it goes on commits as what it goes on with. -/
theorem Keeps.commits {post : α → Prop} {commit : β → ν → ν → Prop} {p : Process σ α}
    {f : α → Process σ (Outcome β)} (hp : p.Keeps inv view post)
    (hf : ∀ a, post a → (f a).Commits inv view commit) : (p >>= f).Commits inv view commit := by
  induction p with
  | done a => exact hf a hp
  | step effect next ih =>
      intro w holds
      obtain ⟨kept, same, later⟩ := hp w holds
      exact ⟨kept, .inl ⟨same, ih w later⟩⟩

/-! ### One after another -/

/-- The operations of these clients one after another, with the given results. -/
inductive InOrder (commit : ι → α → ν → ν → Prop) (results : ι → α) : List ι → ν → ν → Prop
  | nothing (v : ν) : InOrder commit results [] v v
  | next {i : ι} {order : List ι} {v u x : ν} (first : commit i (results i) v u)
      (rest : InOrder commit results order u x) : InOrder commit results (i :: order) v x

omit [DecidableEq ι] in
/-- The first operation takes place from the start. -/
theorem InOrder.first {commit : ι → α → ν → ν → Prop} {results : ι → α} {i : ι} {order : List ι}
    {v x : ν} (ordered : InOrder commit results (i :: order) v x) :
    ∃ u, commit i (results i) v u := by
  cases ordered with
  | next first _ => exact ⟨_, first⟩

omit [DecidableEq ι] in
theorem InOrder.exists_of_mem {commit : ι → α → ν → ν → Prop} {results : ι → α} {order : List ι}
    {v x : ν} (ordered : InOrder commit results order v x) {i : ι} (member : i ∈ order) :
    ∃ u u', commit i (results i) u u' := by
  induction ordered with
  | nothing v => exact absurd member List.not_mem_nil
  | next first _ ih =>
      rcases List.mem_cons.1 member with rfl | later
      · exact ⟨_, _, first⟩
      · exact ih later

/-- What commits and returns has a step left: it does not start with a success. -/
theorem Commits.pending {commit : α → ν → ν → Prop} {turns : List ι}
    {clients : ι → Process σ (Outcome α)} {i : ι} {w : σ} {a : α}
    (commits : (clients i).Commits inv view commit)
    (ends : (run turns clients w).1 i = done (.ok a)) : (clients i).result? = none := by
  cases start : clients i with
  | step effect next => rfl
  | done result =>
      rw [start] at commits
      exact absurd (result_of_run start ends) (commits a)

/-- If all clients return, those that were not done change a part of the state one after another. -/
theorem run_inOrder_pending {commit : ι → α → ν → ν → Prop} {results : ι → α} {turns : List ι}
    {clients : ι → Process σ (Outcome α)} {w : σ} (holds : inv w)
    (each : ∀ i, (clients i).Commits inv view (commit i) ∨ clients i = done (.ok (results i)))
    (ends : ∀ i, (run turns clients w).1 i = done (.ok (results i))) :
    ∃ order : List ι, order.Nodup ∧ (∀ i, i ∈ order ↔ (clients i).result? = none) ∧
      InOrder commit results order (view w) (view (run turns clients w).2) := by
  induction turns generalizing clients w with
  | nil =>
      refine ⟨[], List.nodup_nil, fun i => ?_, .nothing _⟩
      have ended : clients i = done (.ok (results i)) := ends i
      simp [ended, result?]
  | cons i turns ih =>
      have others {p : Process σ (Outcome α)}
          (own : p.Commits inv view (commit i) ∨ p = done (.ok (results i))) :=
        (Function.forall_update_iff clients fun j p =>
          p.Commits inv view (commit j) ∨ p = done (.ok (results j))).2 ⟨own, fun j _ => each j⟩
      cases turn : clients i with
      | done a =>
          simp only [run, turn] at ends ⊢
          exact ih holds each ends
      | step effect next =>
          simp only [run, turn] at ends ⊢
          have own : (step effect next).Commits inv view (commit i) := by
            rcases each i with commits | ended
            · rwa [turn] at commits
            · exact absurd (turn.symm.trans ended) (by simp)
          obtain ⟨kept, ⟨same, later⟩ | ⟨result, last, changes⟩⟩ := own w holds
          · -- the client has steps left, and comes up later
            have pending : (Function.update clients i (next w) i).result? = none :=
              Commits.pending (by rwa [Function.update_self]) (ends i)
            obtain ⟨order, nodup, members, ordered⟩ := ih kept (others (.inl later)) ends
            refine ⟨order, nodup, fun j => ?_, same ▸ ordered⟩
            rw [members j]
            by_cases here : j = i
            · subst here
              rw [pending, turn]
              simp [result?]
            · rw [Function.update_of_ne here]
          · -- the client ends with this step, and is the first
            obtain rfl : result = .ok (results i) :=
              result_of_run (by rw [Function.update_self, last]) (ends i)
            obtain ⟨order, nodup, members, ordered⟩ := ih kept (others (.inr last)) ends
            have new : i ∉ order := by
              rw [members i, Function.update_self, last]
              simp [result?]
            refine ⟨i :: order, List.nodup_cons.2 ⟨new, nodup⟩, fun j => ?_,
              .next (changes _ rfl) ordered⟩
            rw [List.mem_cons, members j]
            by_cases here : j = i
            · subst here
              simp [turn, result?]
            · simp [here]

/-- **Clients that change a part of the state once do so one after another**, if all of them return. -/
theorem run_inOrder {commit : ι → α → ν → ν → Prop} {results : ι → α} {turns : List ι}
    {clients : ι → Process σ (Outcome α)} {w : σ} (holds : inv w)
    (commits : ∀ i, (clients i).Commits inv view (commit i))
    (ends : ∀ i, (run turns clients w).1 i = done (.ok (results i))) :
    ∃ order : List ι, order.Nodup ∧ (∀ i, i ∈ order) ∧
      InOrder commit results order (view w) (view (run turns clients w).2) := by
  obtain ⟨order, once, members, ordered⟩ :=
    run_inOrder_pending holds (fun i => .inl (commits i)) ends
  exact ⟨order, once, fun i => (members i).2 ((commits i).pending (ends i)), ordered⟩

end Process

/-! ### Operations that may fail -/

/-- An operation step by step that may fail. -/
abbrev Call (σ α : Type) := ExceptT DataError (Process σ) α

namespace Call

variable {σ α β ν : Type} {inv : σ → Prop} {view : σ → ν}

/-- A call that only looks at a part of the state, and returns nothing but what `post` says. -/
def Reads (inv : σ → Prop) (view : σ → ν) (post : α → Prop) (x : Call σ α) : Prop :=
  x.run.Keeps inv view fun result => ∀ a, result = .ok a → post a

theorem reads_pure {post : α → Prop} {a : α} (h : post a) :
    Reads inv view post (pure a : Call σ α) := by
  intro b same
  rwa [← Except.ok.inj same]

theorem reads_throw (post : α → Prop) (e : DataError) :
    Reads inv view post (throw e : Call σ α) := by
  intro b same
  exact absurd same (by simp)

theorem reads_liftExcept {post : α → Prop} {x : Outcome α} (h : ∀ a, x = .ok a → post a) :
    Reads inv view post (liftExcept x : Call σ α) := by
  cases x with
  | error e => exact reads_throw post e
  | ok a => exact reads_pure (h a rfl)

theorem reads_liftExcept_any (x : Outcome α) :
    Reads inv view (fun _ => True) (liftExcept x : Call σ α) :=
  reads_liftExcept fun _ _ => trivial

theorem Reads.bind {post : α → Prop} {post' : β → Prop} {x : Call σ α} {f : α → Call σ β}
    (hx : Reads inv view post x) (hf : ∀ a, post a → Reads inv view post' (f a)) :
    Reads inv view post' (x >>= f) := by
  rw [Reads, ExceptT.run_bind]
  refine Process.Keeps.bind hx ?_
  intro result looked
  cases result with
  | error e => exact reads_throw post' e
  | ok a => exact hf a (looked a rfl)

/-- What only looks before it goes on commits as what it goes on with. -/
theorem Reads.commits {post : α → Prop} {commit : β → ν → ν → Prop} {x : Call σ α}
    {f : α → Call σ β} (hx : Reads inv view post x)
    (hf : ∀ a, post a → (f a).run.Commits inv view commit) :
    (x >>= f).run.Commits inv view commit := by
  rw [ExceptT.run_bind]
  refine Process.Keeps.commits hx ?_
  intro result looked
  cases result with
  | error e =>
      intro a same
      exact absurd same (by simp)
  | ok a => exact hf a (looked a rfl)

end Call

end DataAccess
