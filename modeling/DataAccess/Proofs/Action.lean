import DataAccess.Error
/-
**Operations on a state.**  Over backends that live in memory, an operation takes a state to a
result and a new state.  Its failures keep the state that was reached.

Main definitions:

* `Action` — an operation that may fail, over states;
* `Action.runFrom` — its result and the state after it;
* `Action.Returns` — a run that succeeds;
* `Action.Answers`, `Action.Settled` — the same result from every state of an invariant;
* `Action.Leads` — the same result and the same effect;
* `Action.Keeps` — an invariant that holds again afterwards, whatever the result;
* `Action.Yields` — an invariant that holds again, and a property of what is returned;
* `Action.Avoids` — failures that do not occur.

Main results:

* `Action.runFrom_bind`, `Action.returns_bind` — a sequence of two operations;
* `Action.Answers.bind`, `Action.Answers.mapM` — settled operations one after another;
* `Action.Keeps.bind` — a sequence keeps what its parts keep;
* `Action.Yields.bind`, `Action.Yields.foldlM`, `Action.Yields.mapM` — one operation relies on what the
  one before it returns;
* `Action.Avoids.bind`, `Action.Avoids.mapM` — a sequence fails as its parts fail.
-/

set_option autoImplicit false

namespace DataAccess

/-- An operation over states that may fail. -/
abbrev Action (σ α : Type) := ExceptT DataError (StateM σ) α

namespace Action

variable {σ α β : Type}

/-- The result of an operation and the state after it. -/
def runFrom (x : Action σ α) (w : σ) : Outcome α × σ := x.run w

/-- From a state, an operation returns `a` and leaves the state `w'`. -/
def Returns (x : Action σ α) (w : σ) (a : α) (w' : σ) : Prop := x.runFrom w = (.ok a, w')

theorem runFrom_pure (a : α) (w : σ) : runFrom (pure a) w = (.ok a, w) := rfl

theorem runFrom_throw (e : DataError) (w : σ) :
    runFrom (throw e : Action σ α) w = (.error e, w) := rfl

theorem runFrom_bind (x : Action σ α) (f : α → Action σ β) (w : σ) :
    runFrom (x >>= f) w = match x.runFrom w with
      | (.ok a, v) => (f a).runFrom v
      | (.error e, v) => (.error e, v) := by
  change (match x.runFrom w with
    | (result, v) => StateT.run (ExceptT.bindCont f result) v) = _
  rcases x.runFrom w with ⟨_ | _, _⟩ <;> rfl

theorem runFrom_map (f : α → β) (x : Action σ α) (w : σ) :
    runFrom (f <$> x) w = (f <$> (x.runFrom w).1, (x.runFrom w).2) := by
  rw [← bind_pure_comp, runFrom_bind]
  rcases x.runFrom w with ⟨_ | _, _⟩ <;> rfl

theorem runFrom_throw_bind (e : DataError) (f : α → Action σ β) (w : σ) :
    runFrom ((throw e : Action σ α) >>= f) w = (.error e, w) := by
  rw [runFrom_bind, runFrom_throw]

theorem runFrom_lift (x : StateM σ α) (w : σ) :
    runFrom (ExceptT.lift x) w = (.ok (x w).1, (x w).2) := rfl

theorem runFrom_liftExcept (x : Outcome α) (w : σ) :
    runFrom (liftExcept x) w = (x, w) := by
  cases x <;> rfl

theorem returns_pure {a b : α} {w w' : σ} : Returns (pure a) w b w' ↔ a = b ∧ w = w' := by
  simp only [Returns, runFrom_pure, Prod.mk.injEq, Except.ok.injEq]

theorem returns_bind {x : Action σ α} {f : α → Action σ β} {b : β} {w w' : σ} :
    Returns (x >>= f) w b w' ↔ ∃ a v, Returns x w a v ∧ Returns (f a) v b w' := by
  unfold Returns
  rw [runFrom_bind]
  constructor
  · intro h
    cases hx : x.runFrom w with
    | mk result v =>
        rw [hx] at h
        cases result with
        | error e => simp at h
        | ok a => exact ⟨a, v, rfl, h⟩
  · rintro ⟨a, v, hx, hf⟩
    rw [hx]
    exact hf

/-- A list is handled only if each of its items is. -/
theorem Returns.of_mem_mapM {f : α → Action σ β} {items : List α} {bs : List β} {w w' : σ}
    (run : Returns (items.mapM f) w bs w') {a : α} (member : a ∈ items) :
    ∃ v b v', Returns (f a) v b v' := by
  induction items generalizing w w' bs with
  | nil => exact absurd member List.not_mem_nil
  | cons first rest ih =>
      rw [List.mapM_cons] at run
      obtain ⟨b, v, here, run⟩ := returns_bind.1 run
      obtain ⟨more, v', others, -⟩ := returns_bind.1 run
      rcases List.mem_cons.1 member with rfl | member
      · exact ⟨w, b, v, here⟩
      · exact ih others member

theorem returns_map {x : Action σ α} {f : α → β} {b : β} {w w' : σ} :
    Returns (f <$> x) w b w' ↔ ∃ a, f a = b ∧ Returns x w a w' := by
  rw [← bind_pure_comp, returns_bind]
  constructor
  · rintro ⟨a, v, hx, hf⟩
    obtain ⟨rfl, rfl⟩ := returns_pure.1 hf
    exact ⟨a, rfl, hx⟩
  · rintro ⟨a, rfl, hx⟩
    exact ⟨a, w', hx, returns_pure.2 ⟨rfl, rfl⟩⟩

theorem returns_lift {x : StateM σ α} {a : α} {w w' : σ} :
    Returns (ExceptT.lift x) w a w' ↔ (x w).1 = a ∧ (x w).2 = w' := by
  rw [Returns, runFrom_lift, Prod.mk.injEq, Except.ok.injEq]

theorem returns_liftExcept {x : Outcome α} {a : α} {w w' : σ} :
    Returns (liftExcept x) w a w' ↔ x = .ok a ∧ w = w' := by
  rw [Returns, runFrom_liftExcept, Prod.mk.injEq]

/-- A run whose result passes a test returns. -/
theorem exists_returns {x : Action σ α} {w : σ} {p : α → Bool}
    (h : (x.runFrom w).1.toOption.any p = true) :
    ∃ a v, Returns x w a v ∧ p a = true := by
  unfold Returns
  generalize x.runFrom w = result at h ⊢
  obtain ⟨e | a, v⟩ := result
  · exact absurd h (by simp [Except.toOption])
  · exact ⟨a, v, rfl, h⟩

/-! ### Answers that do not change

Under an invariant of the states an operation may always come to the same result and keep the
invariant.  What it asks for is then settled, however often and in whatever order it is asked. -/

/-- From every state of the invariant, the operation comes to `answer` and keeps the invariant. -/
def Answers (inv : σ → Prop) (x : Action σ α) (answer : Outcome α) : Prop :=
  ∀ w, inv w → ∃ v, x.runFrom w = (answer, v) ∧ inv v

/-- The operation comes to the same result from every state of the invariant. -/
def Settled (inv : σ → Prop) (x : Action σ α) : Prop := ∃ answer, Answers inv x answer

variable {inv : σ → Prop}

theorem Answers.returns {x : Action σ α} {answer : Outcome α} {a : α} {w w' : σ}
    (hx : Answers inv x answer) (h : inv w) (run : Returns x w a w') : answer = .ok a ∧ inv w' := by
  obtain ⟨v, ran, kept⟩ := hx w h
  obtain ⟨same, rfl⟩ := Prod.mk.inj (ran.symm.trans run)
  exact ⟨same, kept⟩

theorem Answers.result {x : Action σ α} {answer : Outcome α} {w : σ} (hx : Answers inv x answer)
    (h : inv w) : (x.runFrom w).1 = answer := by
  obtain ⟨v, run, -⟩ := hx w h
  rw [run]

theorem answers_pure (a : α) : Answers inv (pure a : Action σ α) (.ok a) :=
  fun w h => ⟨w, rfl, h⟩

theorem answers_throw (e : DataError) : Answers inv (throw e : Action σ α) (.error e) :=
  fun w h => ⟨w, rfl, h⟩

theorem answers_liftExcept (x : Outcome α) : Answers inv (liftExcept x : Action σ α) x :=
  fun w h => ⟨w, runFrom_liftExcept x w, h⟩

theorem Answers.bind {x : Action σ α} {f : α → Action σ β} {a : α} {answer : Outcome β}
    (hx : Answers inv x (.ok a)) (hf : Answers inv (f a) answer) : Answers inv (x >>= f) answer := by
  intro w h
  obtain ⟨v, run, kept⟩ := hx w h
  rw [runFrom_bind, run]
  exact hf v kept

theorem Answers.bind_error {x : Action σ α} {e : DataError} (hx : Answers inv x (.error e))
    (f : α → Action σ β) : Answers inv (x >>= f) (.error e) := by
  intro w h
  obtain ⟨v, run, kept⟩ := hx w h
  rw [runFrom_bind, run]
  exact ⟨v, rfl, kept⟩

theorem Answers.map {x : Action σ α} {answer : Outcome α} (hx : Answers inv x answer) (f : α → β) :
    Answers inv (f <$> x) (f <$> answer) := by
  intro w h
  obtain ⟨v, run, kept⟩ := hx w h
  exact ⟨v, by rw [runFrom_map, run], kept⟩

/-- A list is handled item by item with the answers for its items. -/
theorem Answers.mapM {f : α → Action σ β} {answer : α → Outcome β}
    (each : ∀ a, Answers inv (f a) (answer a)) :
    ∀ items : List α, Answers inv (items.mapM f) (items.mapM answer)
  | [] => answers_pure []
  | a :: rest => by
      have others := Answers.mapM each rest
      have first := each a
      rw [List.mapM_cons, List.mapM_cons]
      cases here : answer a with
      | error e =>
          rw [here] at first
          exact first.bind_error _
      | ok b =>
          rw [here] at first
          refine first.bind ?_
          cases later : rest.mapM answer with
          | error e =>
              rw [later] at others
              exact others.bind_error _
          | ok bs =>
              rw [later] at others
              exact others.bind (answers_pure (b :: bs))

/-! ### One answer and one effect

An operation that changes the state may still come to the same result from every state of an
invariant, and leave states of another one. -/

/-- From every state of the invariant, the operation comes to `answer` and leaves a state with
`post`. -/
def Leads (inv : σ → Prop) (x : Action σ α) (answer : Outcome α) (post : σ → Prop) : Prop :=
  ∀ w, inv w → ∃ v, x.runFrom w = (answer, v) ∧ post v

theorem Answers.leads_bind {x : Action σ α} {f : α → Action σ β} {a : α} {answer : Outcome β}
    {post : σ → Prop} (hx : Answers inv x (.ok a)) (hf : Leads inv (f a) answer post) :
    Leads inv (x >>= f) answer post := by
  intro w h
  obtain ⟨v, run, kept⟩ := hx w h
  rw [runFrom_bind, run]
  exact hf v kept

/-! ### Settled operations -/

theorem settled_pure (a : α) : Settled inv (pure a : Action σ α) := ⟨_, answers_pure a⟩

theorem settled_throw (e : DataError) : Settled inv (throw e : Action σ α) := ⟨_, answers_throw e⟩

theorem settled_throw_bind (e : DataError) (f : α → Action σ β) :
    Settled inv ((throw e : Action σ α) >>= f) := ⟨_, (answers_throw e).bind_error f⟩

theorem settled_liftExcept (x : Outcome α) : Settled inv (liftExcept x : Action σ α) :=
  ⟨x, answers_liftExcept x⟩

theorem Settled.bind {x : Action σ α} {f : α → Action σ β} (hx : Settled inv x)
    (hf : ∀ a, Settled inv (f a)) : Settled inv (x >>= f) := by
  obtain ⟨e | a, hx⟩ := hx
  · exact ⟨_, hx.bind_error f⟩
  · obtain ⟨answer, hf⟩ := hf a
    exact ⟨answer, hx.bind hf⟩

theorem Settled.map {x : Action σ α} (hx : Settled inv x) (f : α → β) : Settled inv (f <$> x) := by
  obtain ⟨answer, hx⟩ := hx
  exact ⟨_, hx.map f⟩

theorem Settled.foldlM {f : β → α → Action σ β} (each : ∀ b a, Settled inv (f b a)) :
    ∀ (items : List α) (b : β), Settled inv (items.foldlM f b)
  | [], b => settled_pure b
  | a :: rest, b => by
      rw [List.foldlM_cons]
      exact (each b a).bind fun next => Settled.foldlM each rest next

theorem Settled.mapM {f : α → Action σ β} (each : ∀ a, Settled inv (f a)) (items : List α) :
    Settled inv (items.mapM f) :=
  ⟨_, Answers.mapM (fun a => (each a).choose_spec) items⟩

/-- An operation that is settled at one state changes nothing there. -/
theorem Settled.runFrom_eq {x : Action σ α} {w : σ} (h : Settled (fun v => v = w) x) :
    ∃ result, x.runFrom w = (result, w) := by
  obtain ⟨answer, h⟩ := h
  obtain ⟨v, run, rfl⟩ := h w rfl
  exact ⟨answer, run⟩

/-! ### Invariants that are kept -/

/-- From every state of the invariant, the operation leaves one, also when it fails. -/
def Keeps (inv : σ → Prop) (x : Action σ α) : Prop := ∀ w, inv w → inv (x.runFrom w).2

theorem Answers.keeps {x : Action σ α} {answer : Outcome α} (hx : Answers inv x answer) :
    Keeps inv x := by
  intro w h
  obtain ⟨v, run, kept⟩ := hx w h
  rw [run]
  exact kept

theorem keeps_pure (a : α) : Keeps inv (pure a : Action σ α) := (answers_pure a).keeps

theorem keeps_throw (e : DataError) : Keeps inv (throw e : Action σ α) := (answers_throw e).keeps

theorem keeps_throw_bind (e : DataError) (f : α → Action σ β) :
    Keeps inv ((throw e : Action σ α) >>= f) := ((answers_throw e).bind_error f).keeps

theorem keeps_liftExcept (x : Outcome α) : Keeps inv (liftExcept x : Action σ α) :=
  (answers_liftExcept x).keeps

/-- What is settled at every single state keeps everything. -/
theorem keeps_of_settled {x : Action σ α} (hx : ∀ w, Settled (fun v => v = w) x) :
    Keeps inv x := by
  intro w h
  obtain ⟨result, run⟩ := (hx w).runFrom_eq
  rw [run]
  exact h

theorem Keeps.bind {x : Action σ α} {f : α → Action σ β} (hx : Keeps inv x)
    (hf : ∀ a, Keeps inv (f a)) : Keeps inv (x >>= f) := by
  intro w h
  have kept := hx w h
  rw [runFrom_bind]
  rcases run : x.runFrom w with ⟨e | a, v⟩
  · rw [run] at kept
    exact kept
  · rw [run] at kept
    exact hf a v kept

/-- What goes on only with a certain value may rely on it. -/
theorem keeps_liftExcept_bind {x : Outcome α} {f : α → Action σ β}
    (hf : ∀ a, x = .ok a → Keeps inv (f a)) : Keeps inv (liftExcept x >>= f) := by
  intro w h
  rw [runFrom_bind, runFrom_liftExcept]
  cases x with
  | error e => exact h
  | ok a => exact hf a rfl w h

theorem Keeps.map {x : Action σ α} (hx : Keeps inv x) (f : α → β) : Keeps inv (f <$> x) := by
  intro w h
  rw [runFrom_map]
  exact hx w h

/-! ### Results with a property -/

/-- From every state of the invariant, the operation leaves one, and what it returns is good. -/
def Yields (inv : σ → Prop) (x : Action σ α) (good : α → Prop) : Prop :=
  ∀ w, inv w → inv (x.runFrom w).2 ∧ ∀ a, (x.runFrom w).1 = .ok a → good a

theorem Yields.returns {x : Action σ α} {good : α → Prop} {a : α} {w w' : σ}
    (hx : Yields inv x good) (h : inv w) (run : Returns x w a w') : inv w' ∧ good a := by
  obtain ⟨kept, returned⟩ := hx w h
  rw [Returns] at run
  rw [run] at kept returned
  exact ⟨kept, returned a rfl⟩

theorem Yields.mono {x : Action σ α} {good better : α → Prop} (hx : Yields inv x good)
    (weaker : ∀ a, good a → better a) : Yields inv x better := by
  intro w h
  obtain ⟨kept, returned⟩ := hx w h
  exact ⟨kept, fun a run => weaker a (returned a run)⟩

/-- What a run that returns is known to return may be added. -/
theorem Yields.and_returned {x : Action σ α} {good known : α → Prop} (hx : Yields inv x good)
    (returned : ∀ w a w', Returns x w a w' → known a) : Yields inv x fun a => good a ∧ known a := by
  intro w h
  obtain ⟨kept, fine⟩ := hx w h
  exact ⟨kept, fun a run => ⟨fine a run, returned w a _ (Prod.ext run rfl)⟩⟩

theorem Answers.yields {x : Action σ α} {answer : Outcome α} {good : α → Prop}
    (hx : Answers inv x answer) (fine : ∀ a, answer = .ok a → good a) : Yields inv x good := by
  intro w h
  obtain ⟨v, run, kept⟩ := hx w h
  rw [run]
  exact ⟨kept, fine⟩

theorem Keeps.yields {x : Action σ α} (hx : Keeps inv x) : Yields inv x fun _ => True :=
  fun w h => ⟨hx w h, fun _ _ => trivial⟩

theorem yields_pure {good : α → Prop} {a : α} (fine : good a) :
    Yields inv (pure a : Action σ α) good := by
  refine (answers_pure a).yields ?_
  intro b same
  exact Except.ok.inj same ▸ fine

theorem yields_liftExcept {x : Outcome α} {good : α → Prop} (fine : ∀ a, x = .ok a → good a) :
    Yields inv (liftExcept x : Action σ α) good :=
  (answers_liftExcept x).yields fine

theorem Yields.bind {x : Action σ α} {f : α → Action σ β} {good : α → Prop} {better : β → Prop}
    (hx : Yields inv x good) (hf : ∀ a, good a → Yields inv (f a) better) :
    Yields inv (x >>= f) better := by
  intro w h
  obtain ⟨kept, returned⟩ := hx w h
  rw [runFrom_bind]
  generalize x.runFrom w = first at kept returned ⊢
  obtain ⟨e | a, v⟩ := first
  · exact ⟨kept, by simp⟩
  · exact hf a (returned a rfl) v kept

theorem Yields.map {x : Action σ α} {good : α → Prop} {better : β → Prop} {f : α → β}
    (hx : Yields inv x good) (fine : ∀ a, good a → better (f a)) : Yields inv (f <$> x) better := by
  rw [← bind_pure_comp]
  exact hx.bind fun a here => yields_pure (fine a here)

theorem Yields.foldlM {f : β → α → Action σ β} {good : β → Prop} {items : List α}
    (each : ∀ a ∈ items, ∀ b, good b → Yields inv (f b a) good) {b : β} (fine : good b) :
    Yields inv (items.foldlM f b) good := by
  induction items generalizing b with
  | nil => exact yields_pure fine
  | cons a rest ih =>
      rw [List.foldlM_cons]
      refine (each a List.mem_cons_self b fine).bind ?_
      intro next here
      exact ih (fun k member => each k (List.mem_cons_of_mem _ member)) here

theorem Yields.mapM {f : α → Action σ β} {good : β → Prop} {items : List α}
    (each : ∀ a ∈ items, Yields inv (f a) good) :
    Yields inv (items.mapM f) fun bs => ∀ b ∈ bs, good b := by
  induction items with
  | nil => exact yields_pure (by simp)
  | cons a rest ih =>
      rw [List.mapM_cons]
      refine (each a List.mem_cons_self).bind ?_
      intro b here
      refine (ih fun k member => each k (List.mem_cons_of_mem _ member)).bind ?_
      intro more there
      exact yields_pure (List.forall_mem_cons.2 ⟨here, there⟩)

/-! ### Failures that do not occur -/

/-- From no state does the operation fail with such an error. -/
def Avoids (failure : DataError → Prop) (x : Action σ α) : Prop :=
  ∀ w e, (x.runFrom w).1 = .error e → ¬ failure e

variable {failure : DataError → Prop}

theorem avoids_pure (a : α) : Avoids failure (pure a : Action σ α) := by
  intro w e failed
  exact absurd failed (by simp [runFrom_pure])

theorem avoids_throw {e : DataError} (other : ¬ failure e) :
    Avoids failure (throw e : Action σ α) := by
  intro w e' failed
  rwa [← Except.error.inj failed]

theorem avoids_liftExcept {x : Outcome α} (other : ∀ e, x = .error e → ¬ failure e) :
    Avoids failure (liftExcept x : Action σ α) := by
  intro w e failed
  rw [runFrom_liftExcept] at failed
  exact other e failed

theorem Avoids.bind {x : Action σ α} {f : α → Action σ β} (hx : Avoids failure x)
    (hf : ∀ a, Avoids failure (f a)) : Avoids failure (x >>= f) := by
  intro w e failed
  rw [runFrom_bind] at failed
  have here := hx w e
  generalize x.runFrom w = first at here failed
  obtain ⟨e' | a, v⟩ := first
  · exact here (congrArg Except.error (Except.error.inj failed))
  · exact hf a v e failed

theorem Avoids.mapM {f : α → Action σ β} {items : List α}
    (each : ∀ a ∈ items, Avoids failure (f a)) : Avoids failure (items.mapM f) := by
  induction items with
  | nil => exact avoids_pure []
  | cons a rest ih =>
      rw [List.mapM_cons]
      refine (each a List.mem_cons_self).bind ?_
      intro b
      refine (ih fun k member => each k (List.mem_cons_of_mem _ member)).bind ?_
      intro more
      exact avoids_pure _

end Action

end DataAccess
