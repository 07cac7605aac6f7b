import DataAccess.Engine.Basic
import DataAccess.Proofs.Action
/-
**A batch is its items.**  A batch goes through its items with a report at hand.  It leaves what the
items leave that are handled one after another, and its report tells how each of them ended.

Main definitions:

* `Action.eachRun` — items handled one after another, whether they fail or not;
* `BatchReport.ofOutcomes` — the report on outcomes;
* `BatchReport.Describes` — what a report tells of outcomes;
* `Engine.batch` — what changes and new records have in common;
* `Engine.RunsItems` — a batch that is the sequence of its items.

Main results:

* `BatchReport.describes_ofOutcomes` — **a report tells how each item ended**;
* `Engine.eachItem_run` — going through items with a report at hand;
* `Engine.returns_batch` — **a batch handles its items one after another**;
* `Engine.runsItems_batch` — and is exactly the sequence of them.
-/

set_option autoImplicit false

namespace DataAccess

/-! ### Items one after another -/

namespace Action

variable {σ α β : Type}

/-- Handles items one after another and tells how each of them ended. -/
def eachRun (handle : α → Action σ β) (items : List α) : StateM σ (List (Outcome β)) :=
  items.mapM fun item => (handle item).run

theorem eachRun_nil (handle : α → Action σ β) (w : σ) : eachRun handle [] w = ([], w) := rfl

theorem eachRun_cons (handle : α → Action σ β) (item : α) (rest : List α) (w : σ) :
    eachRun handle (item :: rest) w =
      match (handle item).runFrom w with
      | (outcome, v) =>
        match eachRun handle rest v with
        | (outcomes, v') => (outcome :: outcomes, v') := by
  rw [eachRun, List.mapM_cons]
  rfl

theorem length_eachRun {handle : α → Action σ β} {items : List α} {outcomes : List (Outcome β)}
    {w v : σ} (run : eachRun handle items w = (outcomes, v)) : outcomes.length = items.length := by
  induction items generalizing outcomes w with
  | nil =>
      cases run
      rfl
  | cons item rest ih =>
      rw [eachRun_cons] at run
      cases first : (handle item).runFrom w with
      | mk outcome u =>
          cases others : eachRun handle rest u with
          | mk more u' =>
              simp only [first, others] at run
              cases run
              rw [List.length_cons, List.length_cons, ih others]

end Action

theorem itemRecord_eq_ok {item : Json} {record : Record} (h : itemRecord item = .ok record) :
    item = .object record := by
  cases item with
  | object fields => exact congrArg Json.object (Except.ok.inj h)
  | _ => exact absurd h (by simp [itemRecord])

/-! ### Reports -/

namespace BatchReport

/-- The failures among outcomes, with their positions counted from `first`. -/
def failuresFrom (first : Nat) : List (Outcome Record) → List BatchFailure
  | [] => []
  | .ok _ :: rest => failuresFrom (first + 1) rest
  | .error cause :: rest => ⟨first, cause⟩ :: failuresFrom (first + 1) rest

/-- The rows among outcomes. -/
def rowsOf (outcomes : List (Outcome Record)) : List Record := outcomes.filterMap Except.toOption

theorem rowsOf_ok (row : Record) (rest : List (Outcome Record)) :
    rowsOf (.ok row :: rest) = row :: rowsOf rest := rfl

theorem rowsOf_error (cause : DataError) (rest : List (Outcome Record)) :
    rowsOf (.error cause :: rest) = rowsOf rest := rfl

/-- The report on outcomes. -/
def ofOutcomes (outcomes : List (Outcome Record)) : BatchReport :=
  ⟨failuresFrom 0 outcomes, rowsOf outcomes⟩

/-- What a report tells of outcomes: the rows of those that succeeded in their order, the positions and
the causes of the others in their order, and how many there are of both and together; and what it looks
like where it is sent. -/
structure Describes (r : BatchReport) (outcomes : List (Outcome Record)) : Prop where
  rows : r.rows = rowsOf outcomes
  failures : ∀ i cause, ⟨i, cause⟩ ∈ r.failures ↔ outcomes[i]? = some (.error cause)
  increasing : (r.failures.map BatchFailure.item).Pairwise (· < ·)
  total : r.total = outcomes.length
  listed : r.toJson.get? "data" = some (.array (r.rows.map Json.object)) ∧
    r.toJson.get? "errors" = some (.array (r.failures.map fun f => .object
      [("item", .nat f.item), ("message", .string f.cause.message),
       ("error", .string f.cause.code)]))
  numbers : r.toJson.get? "total" = some (.nat outcomes.length) ∧
    r.toJson.get? "successful" = some (.nat r.rows.length) ∧
    r.toJson.get? "errored" = some (.nat r.failures.length) ∧
    r.rows.length + r.failures.length = outcomes.length

/-- A failure is one of an outcome at its position, counted from `first`. -/
theorem mem_failuresFrom {f : BatchFailure} {outcomes : List (Outcome Record)} {first : Nat} :
    f ∈ failuresFrom first outcomes ↔
      ∃ i, f.item = first + i ∧ outcomes[i]? = some (.error f.cause) := by
  induction outcomes generalizing first with
  | nil => simp [failuresFrom]
  | cons outcome rest ih =>
      cases outcome with
      | ok row =>
          rw [failuresFrom, ih]
          constructor
          · rintro ⟨i, item, here⟩
            exact ⟨i + 1, by omega, by simpa using here⟩
          · rintro ⟨i, item, here⟩
            cases i with
            | zero => exact absurd here (by simp)
            | succ i => exact ⟨i, by omega, by simpa using here⟩
      | error cause =>
          rw [failuresFrom, List.mem_cons, ih]
          constructor
          · rintro (rfl | ⟨i, item, here⟩)
            · exact ⟨0, rfl, rfl⟩
            · exact ⟨i + 1, by omega, by simpa using here⟩
          · rintro ⟨i, item, here⟩
            cases i with
            | zero =>
                obtain ⟨position, reason⟩ := f
                obtain rfl : position = first := item
                have same : cause = reason := by simpa using here
                exact .inl (by rw [same])
            | succ i => exact .inr ⟨i, by omega, by simpa using here⟩

/-- Failures come in the order of their positions. -/
theorem increasing_failuresFrom (first : Nat) (outcomes : List (Outcome Record)) :
    ((failuresFrom first outcomes).map BatchFailure.item).Pairwise (· < ·) := by
  induction outcomes generalizing first with
  | nil => exact .nil
  | cons outcome rest ih =>
      cases outcome with
      | ok row => exact ih (first + 1)
      | error cause =>
          rw [failuresFrom, List.map_cons, List.pairwise_cons]
          refine ⟨?_, ih (first + 1)⟩
          intro position member
          obtain ⟨f, there, rfl⟩ := List.mem_map.1 member
          obtain ⟨i, item, -⟩ := mem_failuresFrom.1 there
          change first < f.item
          omega

/-- Every outcome is a row or a failure. -/
theorem length_rows_add (first : Nat) (outcomes : List (Outcome Record)) :
    (rowsOf outcomes).length + (failuresFrom first outcomes).length = outcomes.length := by
  induction outcomes generalizing first with
  | nil => rfl
  | cons outcome rest ih =>
      have others := ih (first + 1)
      cases outcome with
      | ok row =>
          rw [failuresFrom, rowsOf_ok, List.length_cons, List.length_cons]
          omega
      | error cause =>
          rw [failuresFrom, rowsOf_error, List.length_cons, List.length_cons]
          omega

/-- **A report tells how each item ended.** -/
theorem describes_ofOutcomes (outcomes : List (Outcome Record)) :
    (ofOutcomes outcomes).Describes outcomes := by
  have counted := length_rows_add 0 outcomes
  have total : (ofOutcomes outcomes).total = outcomes.length := counted
  refine ⟨rfl, ?_, increasing_failuresFrom 0 outcomes, total, ⟨rfl, rfl⟩, ?_, rfl, rfl,
    counted⟩
  · intro i cause
    rw [ofOutcomes, mem_failuresFrom]
    constructor
    · rintro ⟨k, item, here⟩
      have same : i = k := by simpa using item
      rw [same]
      exact here
    · intro here
      exact ⟨i, by simp, here⟩
  · rw [← total]
    rfl

end BatchReport

/-! ### Batches -/

namespace Engine

open DataAccess.Action

variable {σ : Type}

/-- Going through items with a report at hand: their outcomes are added to it. -/
theorem eachItem_run (handle : Json → Action σ Record) (report : BatchReport) (position : Nat)
    (items : List Json) (w : σ) :
    eachItem handle report position items w =
      match eachRun handle items w with
      | (outcomes, v) =>
        (⟨report.failures ++ BatchReport.failuresFrom position outcomes,
          report.rows ++ BatchReport.rowsOf outcomes⟩, v) := by
  induction items generalizing report position w with
  | nil =>
      rw [eachRun_nil]
      simp only [BatchReport.failuresFrom, BatchReport.rowsOf, List.filterMap_nil, List.append_nil]
      rfl
  | cons item rest ih =>
      have step : eachItem handle report position (item :: rest) w =
          match (handle item).runFrom w with
          | (outcome, v) => eachItem handle (report.record position outcome) (position + 1) rest v :=
        rfl
      rw [step, eachRun_cons]
      cases (handle item).runFrom w with
      | mk outcome v =>
          dsimp only
          rw [ih]
          cases eachRun handle rest v with
          | mk outcomes v' =>
              dsimp only
              cases outcome with
              | ok row =>
                  rw [BatchReport.rowsOf_ok, List.append_cons]
                  rfl
              | error cause =>
                  rw [BatchReport.failuresFrom, List.append_cons]
                  rfl

/-- Going through items keeps what handling each of them keeps. -/
theorem keeps_eachItem {inv : σ → Prop} {handle : Json → Action σ Record} {items : List Json}
    (each : ∀ item ∈ items, Keeps inv (handle item)) (report : BatchReport) (position : Nat) :
    Keeps inv (ExceptT.lift (eachItem handle report position items)) := by
  intro w h
  induction items generalizing report position w with
  | nil => exact h
  | cons item rest ih =>
      have first := each item List.mem_cons_self w h
      exact ih (fun other member => each other (List.mem_cons_of_mem _ member)) _ _ _ first

/-- Handles the items of a payload one after another, once its table is known to have a key. -/
def batch (e : Engine (StateM σ)) (handle : String → Json → Action σ Record) (table : String)
    (data : Json) : Action σ BatchReport := do
  let items ← liftExcept (batchItems data)
  let s ← e.schema table
  let primaryKey ← liftExcept s.primaryKeyField
  ExceptT.lift (eachItem (handle primaryKey) .empty 0 items)

/-- `updateMany` and `createMany` differ in what they do with an item. -/
theorem updateMany_eq (e : Engine (StateM σ)) (table : String) (data : Json) :
    e.updateMany table data = e.batch (e.updateItem table) table data := rfl

theorem createMany_eq (e : Engine (StateM σ)) (table : String) (data : Json) :
    e.createMany table data = e.batch (fun _ => e.createItem table) table data := rfl

variable {e : Engine (StateM σ)} {handle : String → Json → Action σ Record} {table : String}
  {items : List Json} {w v : σ}

/-- **A batch handles its items one after another and reports on their outcomes.** -/
theorem returns_batch {report : BatchReport} :
    Returns (e.batch handle table (.array items)) w report v ↔
      ∃ s u primaryKey outcomes, Returns (e.schema table) w s u ∧
        s.primaryKeyField = .ok primaryKey ∧
        eachRun (handle primaryKey) items u = (outcomes, v) ∧ report = .ofOutcomes outcomes := by
  constructor
  · intro run
    obtain ⟨_, _, array, run⟩ := returns_bind.1 run
    obtain ⟨same, rfl⟩ := returns_liftExcept.1 array
    obtain rfl := Except.ok.inj same
    obtain ⟨s, u, served, run⟩ := returns_bind.1 run
    obtain ⟨primaryKey, _, keyed, run⟩ := returns_bind.1 run
    obtain ⟨key, rfl⟩ := returns_liftExcept.1 keyed
    rw [returns_lift, eachItem_run] at run
    obtain ⟨rfl, rfl⟩ := run
    exact ⟨s, u, primaryKey, _, served, key, rfl, rfl⟩
  · rintro ⟨s, u, primaryKey, outcomes, served, key, run, rfl⟩
    refine returns_bind.2 ⟨items, w, returns_liftExcept.2 ⟨rfl, rfl⟩, ?_⟩
    refine returns_bind.2 ⟨s, u, served, ?_⟩
    refine returns_bind.2 ⟨primaryKey, u, returns_liftExcept.2 ⟨key, rfl⟩, ?_⟩
    rw [returns_lift, eachItem_run, run]
    exact ⟨rfl, rfl⟩

/-- From `w`, what handles a list of items returns where the items end that are handled one after
another from `u`, and its report tells how each of them ended. -/
def RunsItems (batch : Action σ BatchReport) (handle : Json → Action σ Record) (items : List Json)
    (w u : σ) : Prop :=
  ∃ outcomes v report, eachRun handle items u = (outcomes, v) ∧ outcomes.length = items.length ∧
    Returns batch w report v ∧ report.Describes outcomes

/-- A batch on a table with a key is exactly the sequence of its items. -/
theorem runsItems_batch {s : Schema} {u : σ} {primaryKey : String}
    (served : Returns (e.schema table) w s u) (key : s.primaryKeyField = .ok primaryKey) :
    RunsItems (e.batch handle table (.array items)) (handle primaryKey) items w u := by
  cases run : eachRun (handle primaryKey) items u with
  | mk outcomes v =>
      refine ⟨outcomes, v, .ofOutcomes outcomes, run, length_eachRun run, ?_, ?_⟩
      · exact returns_batch.2 ⟨s, u, primaryKey, outcomes, served, key, run, rfl⟩
      · exact BatchReport.describes_ofOutcomes outcomes

end Engine

end DataAccess
