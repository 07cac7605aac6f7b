import DataAccess.Proofs.Sql.Recording
/-
**The same replies, the same run.**  Over a scripted backend an operation learns nothing but the replies
to its statements.  So the trace that it leaves and the result that it comes to are settled by these
replies: neither what was recorded before matters, nor the replies that it does not ask for.

Main definitions:

* `Plays` — wherever these are the replies, a run leaves the trace and comes to the result;
* `Playable` — whatever the replies are, there are a trace and a result.

Main results:

* `replied_eraseIdx` — a reply that is left out changes none of those before it;
* `Plays.bind`, `Plays.withConnection` — sequences, and operations on a connection of their own;
* `Playable.bind` — **a sequence is settled by the replies if its parts are**.
-/

set_option autoImplicit false

namespace DataAccess

open DataAccess.Action

variable {ρ α β : Type}

/-! ### Replies that are left out -/

section Replies

variable {replies : List (Except NativeError QueryOutput)} {log : List Exchange}

/-- Without a reply, the ones in front of it are the same. -/
theorem replied_eraseIdx {i : Nat} (early : log.length ≤ i) :
    Replied (replies.eraseIdx i) log ↔ Replied replies log := by
  refine forall_congr' fun n => forall_congr' fun exchange => ?_
  refine imp_congr_right fun found => ?_
  have inside : n < i := Nat.lt_of_lt_of_le (List.getElem?_eq_some_iff.1 found).1 early
  rw [List.getElem?_eraseIdx_of_lt inside]

theorem drop_eraseIdx (replies : List (Except NativeError QueryOutput)) (i : Nat) :
    (replies.eraseIdx i).drop i = replies.drop (i + 1) := by
  refine List.ext_getElem? fun n => ?_
  rw [List.getElem?_drop, List.getElem?_drop, List.getElem?_eraseIdx_of_ge (Nat.le_add_right i n)]
  congr 1
  omega

end Replies

/-! ### Runs that the replies settle -/

/-- On every script that grants connections and has the replies of a trace, a run leaves the trace and
comes to a result. -/
def Plays (x : Action (Script × ρ) α) (log : List Exchange) (result : Outcome α) : Prop :=
  ∀ w : Script × ρ, w.1.refusal = none → Replied w.1.replies log →
    Recorded w log (x.runFrom w).2 ∧ (x.runFrom w).1 = result

/-- Whatever the replies are, they settle a trace and a result. -/
def Playable (x : Action (Script × ρ) α) : Prop :=
  ∀ replies, ∃ log result, Replied replies log ∧ Plays x log result

namespace Plays

variable {x : Action (Script × ρ) α} {log more : List Exchange}

theorem of_runFrom {result : Outcome α} (run : ∀ w, x.runFrom w = (result, w)) :
    Plays x [] result := by
  intro w _ _
  rw [run]
  exact ⟨Recorded.refl w, rfl⟩

theorem pure (a : α) : Plays (Pure.pure a : Action (Script × ρ) α) [] (.ok a) :=
  of_runFrom fun _ => rfl

theorem lift (result : Outcome α) : Plays (liftExcept result : Action (Script × ρ) α) [] result :=
  of_runFrom (runFrom_liftExcept result)

/-- Two operations one after another. -/
theorem bind {a : α} {f : α → Action (Script × ρ) β} {result : Outcome β}
    (first : Plays x log (.ok a)) (second : Plays (f a) more result) :
    Plays (x >>= f) (log ++ more) result := by
  intro w free replied
  obtain ⟨replied, replied'⟩ := replied_append.1 replied
  obtain ⟨recorded, returned⟩ := first w free replied
  rw [runFrom_bind]
  rcases run : x.runFrom w with ⟨outcome, v⟩
  rw [run] at recorded returned
  dsimp only at recorded returned
  rw [returned]
  dsimp only
  obtain ⟨recorded', ended⟩ := second v (recorded.refusal.trans free)
    (by rwa [recorded.replies])
  exact ⟨recorded.append recorded', ended⟩

/-- What fails is not followed. -/
theorem bind_error {e : DataError} {f : α → Action (Script × ρ) β} (first : Plays x log (.error e)) :
    Plays (x >>= f) log (.error e) := by
  intro w free replied
  obtain ⟨recorded, failed⟩ := first w free replied
  rw [runFrom_bind]
  rcases run : x.runFrom w with ⟨outcome, v⟩
  rw [run] at recorded failed
  dsimp only at recorded failed
  rw [failed]
  exact ⟨recorded, rfl⟩

theorem map {f : α → β} {result : Outcome α} (h : Plays x log result) :
    Plays (f <$> x) log (f <$> result) := by
  intro w free replied
  obtain ⟨recorded, ended⟩ := h w free replied
  rw [runFrom_map, ended]
  exact ⟨recorded, rfl⟩

/-- An operation on a connection of its own does what it does there. -/
theorem withConnection {use : SqlConnection (StateM (Script × ρ)) → Action (Script × ρ) α}
    {result : Outcome α} (h : Plays (use Script.connection) log result) :
    Plays (Script.paired.withConnection use) log result := by
  intro w free replied
  obtain ⟨recorded, ended⟩ := h ({ w.1 with opened := w.1.opened + 1 }, w.2) free replied
  rw [runFrom_withConnection free]
  exact ⟨recorded.released, ended⟩

/-- One statement is one exchange, and a reply that is a failure is classified. -/
theorem runStatement (d : SqlDatasource (StateM (Script × ρ))) (s : Statement)
    (reply : Except NativeError QueryOutput) :
    Plays (d.runStatement Script.connection s) [⟨s.compile d.dialect, reply⟩]
      (reply.mapError d.dialect.classify) := by
  intro w _ replied
  have own : (w.1.execute (s.compile d.dialect)).1 = reply := by
    rw [Script.execute, List.head?_eq_getElem?]
    exact (replied 0 _ rfl).symm
  have recorded := Recorded.execute w (s.compile d.dialect)
  rw [SqlDatasource.runFrom_runStatement]
  rw [own] at recorded ⊢
  exact ⟨recorded, rfl⟩

end Plays

namespace Playable

variable {x : Action (Script × ρ) α}

theorem of_runFrom {result : Outcome α} (run : ∀ w, x.runFrom w = (result, w)) : Playable x :=
  fun _ => ⟨[], result, replied_nil, .of_runFrom run⟩

theorem pure (a : α) : Playable (Pure.pure a : Action (Script × ρ) α) := of_runFrom fun _ => rfl

theorem lift (result : Outcome α) : Playable (liftExcept result : Action (Script × ρ) α) :=
  of_runFrom (runFrom_liftExcept result)

/-- What follows a result goes on in one way, whatever came to the result. -/
theorem after {f : α → Action (Script × ρ) β} (second : ∀ a, Playable (f a)) (result : Outcome α)
    (replies : List (Except NativeError QueryOutput)) :
    ∃ more last, Replied replies more ∧ ∀ (x : Action (Script × ρ) α) (log : List Exchange),
      Plays x log result → Plays (x >>= f) (log ++ more) last := by
  cases result with
  | error e =>
      refine ⟨[], .error e, replied_nil, fun x log plays => ?_⟩
      rw [List.append_nil]
      exact plays.bind_error
  | ok a =>
      obtain ⟨more, last, replied, plays'⟩ := second a replies
      exact ⟨more, last, replied, fun x log plays => plays.bind plays'⟩

/-- **A sequence is settled by the replies if its parts are.** -/
theorem bind {f : α → Action (Script × ρ) β} (first : Playable x) (second : ∀ a, Playable (f a)) :
    Playable (x >>= f) := by
  intro replies
  obtain ⟨log, result, replied, plays⟩ := first replies
  obtain ⟨more, last, replied', follows⟩ := after second result (replies.drop log.length)
  exact ⟨log ++ more, last, replied_append.2 ⟨replied, replied'⟩, follows x log plays⟩

theorem map (h : Playable x) (f : α → β) : Playable (f <$> x) := by
  intro replies
  obtain ⟨log, result, replied, plays⟩ := h replies
  exact ⟨log, f <$> result, replied, plays.map⟩

theorem withConnection {use : SqlConnection (StateM (Script × ρ)) → Action (Script × ρ) α}
    (h : Playable (use Script.connection)) : Playable (Script.paired.withConnection use) := by
  intro replies
  obtain ⟨log, result, replied, plays⟩ := h replies
  exact ⟨log, result, replied, plays.withConnection⟩

theorem runStatement (d : SqlDatasource (StateM (Script × ρ))) (s : Statement) :
    Playable (d.runStatement Script.connection s) :=
  fun replies => ⟨_, _, replied_single, .runStatement d s (replies.head?.getD (.ok .empty))⟩

/-- Storing a record is settled by the replies. -/
theorem createOne {d : SqlDatasource (StateM (Script × ρ))} (scripted : d.connector = Script.paired)
    (s : Schema) (record : Record) : Playable (d.createOne s record) := by
  rw [SqlDatasource.createOne, scripted]
  refine withConnection ((runStatement d _).bind fun output => ?_)
  refine bind ?_ fun rows => ?_
  · rw [SqlDatasource.writtenRows]
    split
    · exact pure _
    · exact pure _
    · exact (lift _).bind fun q => (runStatement d q).bind fun rows => pure _
  · cases rows with
    | nil => exact of_runFrom fun _ => rfl
    | cons row more => exact lift _

end Playable

end DataAccess
