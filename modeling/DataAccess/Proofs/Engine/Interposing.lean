import DataAccess.Proofs.Engine.Recorded
import DataAccess.Proofs.Sql.Replaying
/-
**One check more.**  Over a scripted backend two records that differ in one unique value alone are
looked for in the same way, except that the one with the value makes a check more.  So its run on a
script compares with the run of the other one on the script without the reply to that check: what comes
before is the same, and what comes after is the same if the check passes.

Main definitions:

* `Recorder.lookFor` — looking for values, on a connection of the script;
* `Script.without` — a script without one of its replies;
* `Interposed` — how two runs compare of which the first makes one check more.

Main results:

* `Recorder.playable_lookFor` — looking for values is settled by the replies;
* `Recorder.plays_requireUnique` — what a check of unique fields comes to;
* `Recorder.interposed` — **one value more to look for is one check more, and nothing else**.
-/

set_option autoImplicit false

namespace DataAccess

open DataAccess.Action

/-! ### Checks of unique values -/

namespace Recorder

variable {ρ : Type} (g : Recorder ρ) {s : Schema}

/-- Looking for values, on a connection of the script. -/
def lookFor (s : Schema) (candidates : List (Column × Json)) : Action (Script × ρ) UniqueVerdict :=
  g.datasource.checkCandidates Script.connection s none candidates

section Candidates

variable {candidate : Column × Json} {before rest : List (Column × Json)} {q : Statement}
  {log more : List Exchange} {result : Outcome UniqueVerdict}

/-- Looking for a value counts it first. -/
theorem lookFor_cons (compiled : (Check.free s [] candidate).statement = .ok q) :
    g.lookFor s (candidate :: rest) = g.datasource.runCount Script.connection q >>= fun total =>
      if 0 < total then pure (.duplicate candidate.1.field) else g.lookFor s rest := by
  have counting : Statement.countMatching s candidate.1.field candidate.2 none = .ok q := compiled
  rw [lookFor, SqlDatasource.checkCandidates, counting]
  exact pure_bind q _

theorem plays_runCount (reply : Except NativeError QueryOutput) :
    Plays (g.datasource.runCount Script.connection q) [⟨q.compile g.dialect, reply⟩]
      ((fun output => readTotal output.rows) <$> reply.mapError g.dialect.classify) := by
  rw [SqlDatasource.runCount, bind_pure_comp]
  exact (Plays.runStatement g.datasource q reply).map

theorem plays_unaddressed {e : DataError} (error : (Check.free s [] candidate).statement = .error e) :
    Plays (g.lookFor s (candidate :: rest)) [] (.error e) := by
  have counting : Statement.countMatching s candidate.1.field candidate.2 none = .error e := error
  rw [lookFor, SqlDatasource.checkCandidates, counting]
  exact (Plays.lift (.error e)).bind_error

theorem plays_failed (compiled : (Check.free s [] candidate).statement = .ok q) (e : NativeError) :
    Plays (g.lookFor s (candidate :: rest))
      [⟨q.compile g.dialect, .error e⟩] (.error (g.dialect.classify e)) := by
  rw [g.lookFor_cons compiled]
  exact (g.plays_runCount (.error e)).bind_error

theorem plays_refused (compiled : (Check.free s [] candidate).statement = .ok q)
    {output : QueryOutput} (taken : 0 < readTotal output.rows) :
    Plays (g.lookFor s (candidate :: rest))
      [⟨q.compile g.dialect, .ok output⟩] (.ok (.duplicate candidate.1.field)) := by
  rw [g.lookFor_cons compiled]
  refine (g.plays_runCount (.ok output)).bind ?_
  rw [if_pos taken]
  exact .pure _

theorem plays_passed (compiled : (Check.free s [] candidate).statement = .ok q)
    {output : QueryOutput} (untaken : ¬ 0 < readTotal output.rows)
    (later : Plays (g.lookFor s rest) log result) :
    Plays (g.lookFor s (candidate :: rest)) (⟨q.compile g.dialect, .ok output⟩ :: log) result := by
  rw [g.lookFor_cons compiled]
  refine (g.plays_runCount (.ok output)).bind ?_
  rw [if_neg untaken]
  exact later

/-- Further values are looked for only when the first ones are all free. -/
theorem lookFor_append (before rest : List (Column × Json)) :
    g.lookFor s (before ++ rest) = g.lookFor s before >>= fun verdict =>
      match verdict with
      | .valid => g.lookFor s rest
      | .duplicate field => pure (.duplicate field) := by
  induction before with
  | nil =>
      have found : g.lookFor s [] = pure .valid := rfl
      rw [List.nil_append, found, pure_bind]
  | cons candidate more ih =>
      obtain ⟨column, v⟩ := candidate
      rw [List.cons_append, lookFor, lookFor, SqlDatasource.checkCandidates,
        SqlDatasource.checkCandidates, bind_assoc]
      refine bind_congr fun count => ?_
      rw [bind_assoc]
      refine bind_congr fun total => ?_
      split
      · rw [pure_bind]
      · exact ih

theorem plays_append {before : List (Column × Json)}
    (first : Plays (g.lookFor s before) log (.ok .valid))
    (later : Plays (g.lookFor s rest) more result) :
    Plays (g.lookFor s (before ++ rest)) (log ++ more) result := by
  rw [g.lookFor_append]
  exact first.bind later

/-- What ends a check ends it whatever comes after. -/
theorem plays_stop {before : List (Column × Json)}
    (first : Plays (g.lookFor s before) log result)
    (stopped : result ≠ .ok .valid) :
    Plays (g.lookFor s (before ++ rest)) log result := by
  rw [g.lookFor_append]
  cases result with
  | error e => exact first.bind_error
  | ok verdict =>
      cases verdict with
      | valid => exact absurd rfl stopped
      | duplicate field => exact List.append_nil log ▸ first.bind (.pure _)

theorem playable_lookFor (candidates : List (Column × Json)) : Playable (g.lookFor s candidates) := by
  induction candidates with
  | nil => exact .pure _
  | cons candidate rest ih =>
      obtain ⟨column, v⟩ := candidate
      rw [lookFor, SqlDatasource.checkCandidates]
      refine (Playable.lift _).bind fun q => Playable.bind ?_ fun total => ?_
      · exact fun replies => ⟨_, _, replied_single, g.plays_runCount _⟩
      · split
        · exact .pure _
        · exact ih

/-- Whatever the replies are, the checks for some values are made, up to the first that does not
pass. -/
theorem exists_plays (candidates : List (Column × Json))
    (columns : ∀ candidate ∈ candidates, candidate.1 ∈ s.columns) {w : Script × ρ}
    (free : w.1.refusal = none) :
    ∃ log result, Replied w.1.replies log ∧ Plays (g.lookFor s candidates) log result ∧
      Checks g.dialect (candidates.map (Check.free s [])) log (result.toOption = some .valid) := by
  obtain ⟨log, result, replied, plays⟩ := g.playable_lookFor candidates w.1.replies
  obtain ⟨recorded, ended⟩ := plays w free replied
  have made : Records (g.lookFor s candidates) w fun log result =>
      Checks g.dialect (candidates.map (Check.free s [])) log (result.toOption = some .valid) :=
    g.records_checkCandidates (fun _ _ => rfl) (fun c none => absurd none List.not_mem_nil) columns w
  obtain ⟨log', recorded', checks⟩ := made
  rw [← recorded.unique recorded', ended] at checks
  exact ⟨log, result, replied, plays, checks⟩

end Candidates

/-- A check of unique fields is settled by the values to look for. -/
theorem requireUnique_congr {record record' : Record}
    (same : s.uniqueCandidates g.config.identityFields record =
      s.uniqueCandidates g.config.identityFields record') :
    g.engine.requireUnique s record none = g.engine.requireUnique s record' none := by
  have identity : g.datasource.identityFields = g.config.identityFields := rfl
  have checked : g.datasource.uniqueCheck s record none = g.datasource.uniqueCheck s record' none := by
    rw [SqlDatasource.uniqueCheck, SqlDatasource.uniqueCheck, identity, same]
  exact congrArg (fun check => check >>= fun verdict => liftExcept verdict.outcome) checked

/-- A check of unique fields goes on only if all the values are free. -/
theorem plays_requireUnique {record : Record} {log : List Exchange} {result : Outcome UniqueVerdict}
    (looked : Plays (g.lookFor s (s.uniqueCandidates g.config.identityFields record)) log result) :
    Plays (g.engine.requireUnique s record none) log (result >>= UniqueVerdict.outcome) := by
  have checked : Plays (g.engine.datasource.uniqueCheck s record none) log result := by
    change Plays (g.datasource.uniqueCheck s record none) log result
    have identity : g.datasource.identityFields = g.config.identityFields := rfl
    rw [SqlDatasource.uniqueCheck, identity]
    split
    · next none =>
      rw [none] at looked
      exact looked
    · exact looked.withConnection
  cases result with
  | error e => exact checked.bind_error
  | ok verdict => exact List.append_nil log ▸ checked.bind (.lift verdict.outcome)

end Recorder

/-! ### One more check -/

/-- A script without one of its replies. -/
def Script.without {ρ : Type} (w : Script × ρ) (i : Nat) : Script × ρ :=
  ({ w.1 with replies := w.1.replies.eraseIdx i }, w.2)

/-- A run that makes one check more than another one, whose script lacks the reply to it.  Either a
check that both make ends them, or the additional one ends the run, or it passes and leaves no other
trace. -/
inductive Interposed {ρ : Type} (d : Dialect) (before : List Check) (check : Check)
    (w w' : Script × ρ) (run run' : Outcome Reply × (Script × ρ)) : Prop
  | earlier {log : List Exchange} (checks : Checks d before log false)
      (recorded : Recorded w log run.2) (recorded' : Recorded w' log run'.2) (same : run.1 = run'.1)
  | unaddressed {log : List Exchange} {e : DataError} (checks : Checks d before log true)
      (error : check.statement = .error e) (recorded : Recorded w log run.2)
      (returned : run.1 = .error e)
  | failed {log : List Exchange} {q : Statement} {e : NativeError}
      (checks : Checks d before log true) (compiled : check.statement = .ok q)
      (recorded : Recorded w (log ++ [⟨q.compile d, .error e⟩]) run.2)
      (returned : run.1 = .error (d.classify e))
  | refused {log : List Exchange} {q : Statement} {output : QueryOutput}
      (checks : Checks d before log true) (compiled : check.statement = .ok q)
      (fails : check.passes output.rows = false)
      (recorded : Recorded w (log ++ [⟨q.compile d, .ok output⟩]) run.2)
      (returned : run.1 = .error .duplicateRecord)
  | passed {log more : List Exchange} {q : Statement} {output : QueryOutput}
      (checks : Checks d before log true) (compiled : check.statement = .ok q)
      (passes : check.passes output.rows = true)
      (recorded : Recorded w (log ++ ⟨q.compile d, .ok output⟩ :: more) run.2)
      (recorded' : Recorded w' (log ++ more) run'.2) (same : run.1 = run'.1)

namespace Recorder

variable {ρ : Type} (g : Recorder ρ) {s : Schema} {record record' : Record}
  {candidate : Column × Json} {before after : List (Column × Json)} {w : Script × ρ}

section

variable (without : s.uniqueCandidates g.config.identityFields record = before ++ after)
  (given : s.uniqueCandidates g.config.identityFields record' = before ++ candidate :: after)
  (free : w.1.refusal = none)

include without given free

/-- A check in front of the additional one ends both runs. -/
theorem interposed_earlier {f : Unit → Action (Script × ρ) Reply} {log : List Exchange}
    {result : Outcome UniqueVerdict} (replied : Replied w.1.replies log)
    (plays : Plays (g.lookFor s before) log result)
    (checks : Checks g.dialect (before.map (Check.free s [])) log false)
    (stopped : result ≠ .ok .valid) :
    Interposed g.dialect (before.map (Check.free s [])) (Check.free s [] candidate) w
      (Script.without w before.length)
      (runFrom (g.engine.requireUnique s record' none >>= f) w)
      (runFrom (g.engine.requireUnique s record none >>= f) (Script.without w before.length)) := by
  obtain ⟨e, error⟩ : ∃ e, result >>= UniqueVerdict.outcome = .error e := by
    cases result with
    | error e => exact ⟨e, rfl⟩
    | ok verdict =>
        cases verdict with
        | valid => exact absurd rfl stopped
        | duplicate field => exact ⟨.duplicateRecord, rfl⟩
  have run := g.plays_requireUnique (given ▸ g.plays_stop plays stopped)
  have run' := g.plays_requireUnique (without ▸ g.plays_stop plays stopped)
  rw [error] at run run'
  have short : log.length ≤ before.length := List.length_map (Check.free s []) ▸ checks.length_le
  obtain ⟨recorded, ended⟩ := run.bind_error w free replied
  obtain ⟨recorded', ended'⟩ := run'.bind_error (Script.without w before.length) free
    ((replied_eraseIdx short).2 replied)
  exact .earlier checks recorded recorded' (ended.trans ended'.symm)

/-- The additional check passes, and both runs go on in the same way. -/
theorem interposed_passed {f : Unit → Action (Script × ρ) Reply} (playable : ∀ u, Playable (f u))
    {log : List Exchange} {q : Statement} {output : QueryOutput}
    (plays : Plays (g.lookFor s before) log (.ok .valid))
    (checks : Checks g.dialect (before.map (Check.free s [])) log true)
    (compiled : (Check.free s [] candidate).statement = .ok q)
    (replied : Replied w.1.replies (log ++ [⟨q.compile g.dialect, .ok output⟩]))
    (untaken : ¬ 0 < readTotal output.rows) :
    Interposed g.dialect (before.map (Check.free s [])) (Check.free s [] candidate) w
      (Script.without w before.length)
      (runFrom (g.engine.requireUnique s record' none >>= f) w)
      (runFrom (g.engine.requireUnique s record none >>= f) (Script.without w before.length)) := by
  obtain ⟨more, result, replied', plays'⟩ :=
    g.playable_lookFor after (w.1.replies.drop (log.length + 1))
  obtain ⟨writes, last, written, follows⟩ := Playable.after playable
    (result >>= UniqueVerdict.outcome) ((w.1.replies.drop (log.length + 1)).drop more.length)
  have rest := replied_append.2 ⟨replied', written⟩
  have run := follows _ _ (g.plays_requireUnique
    (given ▸ g.plays_append plays (g.plays_passed compiled untaken plays')))
  have run' := follows _ _ (g.plays_requireUnique (without ▸ g.plays_append plays plays'))
  -- both traces, put together from the checks in front, the additional one, and what follows
  have whole : Replied w.1.replies
      (log ++ [⟨q.compile g.dialect, .ok output⟩] ++ (more ++ writes)) :=
    replied_append.2 ⟨replied, by rwa [List.length_append]⟩
  have length : log.length = before.length := by rw [checks.length_eq, List.length_map]
  have skipped : (Script.without w before.length).1.replies.drop log.length =
      w.1.replies.drop (log.length + 1) := by
    rw [length]
    exact drop_eraseIdx w.1.replies before.length
  have shorter : Replied (Script.without w before.length).1.replies (log ++ (more ++ writes)) :=
    replied_append.2
      ⟨(replied_eraseIdx (Nat.le_of_eq length)).2 (replied_append.1 replied).1, skipped ▸ rest⟩
  simp only [List.append_assoc, List.cons_append, List.nil_append] at run run' whole
  obtain ⟨recorded, ended⟩ := run w free whole
  obtain ⟨recorded', ended'⟩ := run' (Script.without w before.length) free shorter
  exact .passed checks compiled (by simpa [Check.free] using untaken) recorded recorded'
    (ended.trans ended'.symm)

/-- **One value more to look for is one check more, and leaves no other trace.** -/
theorem interposed {f : Unit → Action (Script × ρ) Reply} (playable : ∀ u, Playable (f u)) :
    Interposed g.dialect (before.map (Check.free s [])) (Check.free s [] candidate) w
      (Script.without w before.length)
      (runFrom (g.engine.requireUnique s record' none >>= f) w)
      (runFrom (g.engine.requireUnique s record none >>= f) (Script.without w before.length)) := by
  have columns : ∀ candidate ∈ before, candidate.1 ∈ s.columns := fun candidate member =>
    (Schema.uniqueCandidates_mem (without ▸ List.mem_append_left after member)).1
  obtain ⟨log, result, replied, plays, checks⟩ := g.exists_plays before columns free
  by_cases valid : result = .ok .valid
  · subst valid
    replace checks : Checks g.dialect (before.map (Check.free s [])) log true := checks
    have asked {more : List Exchange} {result : Outcome UniqueVerdict}
        (looked : Plays (g.lookFor s (candidate :: after)) more result) :=
      g.plays_requireUnique (given ▸ g.plays_append plays looked)
    cases compiled : (Check.free s [] candidate).statement with
    | error e =>
        have run := asked (g.plays_unaddressed compiled)
        rw [List.append_nil] at run
        obtain ⟨recorded, ended⟩ := run.bind_error w free replied
        exact .unaddressed checks compiled recorded ended
    | ok q =>
        have first : Replied (w.1.replies.drop log.length)
            [⟨q.compile g.dialect, (w.1.replies.drop log.length).head?.getD (.ok .empty)⟩] :=
          replied_single
        have next := replied_append.2 ⟨replied, first⟩
        cases reply : (w.1.replies.drop log.length).head?.getD (.ok .empty) with
        | error e =>
            rw [reply] at next
            obtain ⟨recorded, ended⟩ := (asked (g.plays_failed compiled e)).bind_error w free next
            exact .failed checks compiled recorded ended
        | ok output =>
            rw [reply] at next
            by_cases taken : 0 < readTotal output.rows
            · obtain ⟨recorded, ended⟩ :=
                (asked (g.plays_refused compiled taken)).bind_error w free next
              exact .refused checks compiled (by simp [Check.free, Nat.ne_of_gt taken]) recorded ended
            · exact g.interposed_passed without given free playable plays checks compiled next taken
  · rw [decide_eq_false fun all => valid (Outcome.toOption_eq_some.1 all)] at checks
    exact g.interposed_earlier without given free replied plays checks valid

end

end Recorder

end DataAccess
