import DataAccess.Proofs.Query.Requests
/-
**Registries that answer alike.**  Reading a request asks the registry for schemas and for nothing
else.  So registries that answer every table with the same schema, or with the same failure, read a
request in the same way, whatever else happens to their states meanwhile.

Main definitions:

* `Resolving.Alike` — runs of a family that cannot be told apart.

Main results:

* `Resolving.Alike.bind`, `Resolving.Alike.foldlM` — such runs one after another;
* `SchemaRegistry.alike_readQuery` — the reading of a request;
* `SchemaRegistry.exists_answers_parseQuery` — **a request is answered alike**.
-/

set_option autoImplicit false

namespace DataAccess

namespace Resolving

variable {σ ι α β : Type}

/-- From the same nodes and from any states of the invariant, the runs of a family come to the same
result and to the same nodes, and they keep the invariant. -/
def Alike (inv : σ → Prop) (x : ι → Resolving (StateM σ) α) : Prop :=
  ∀ nodes, ∃ result, ∀ i w, inv w → ∃ v, (x i).runFrom nodes w = (result, v) ∧ inv v

variable {inv : σ → Prop}

/-- What depends on the nodes only. -/
theorem alike_const {x : Resolving (StateM σ) α}
    (result : List RelationNode → Outcome α × List RelationNode)
    (run : ∀ nodes w, x.runFrom nodes w = (result nodes, w)) : Alike inv fun _ : ι => x :=
  fun nodes => ⟨result nodes, fun _ w h => ⟨w, run nodes w, h⟩⟩

theorem alike_pure (a : α) : Alike inv fun _ : ι => (pure a : Resolving (StateM σ) α) :=
  alike_const (fun nodes => (.ok a, nodes)) fun _ _ => rfl

theorem alike_throw (e : DataError) : Alike inv fun _ : ι => (throw e : Resolving (StateM σ) α) :=
  alike_const (fun nodes => (.error e, nodes)) fun _ _ => rfl

theorem alike_get : Alike inv fun _ : ι => (get : Resolving (StateM σ) (List RelationNode)) :=
  alike_const (fun nodes => (.ok nodes, nodes)) fun _ _ => rfl

theorem alike_modify (f : List RelationNode → List RelationNode) :
    Alike inv fun _ : ι => (modify f : Resolving (StateM σ) PUnit) :=
  alike_const (fun nodes => (.ok PUnit.unit, f nodes)) fun _ _ => rfl

theorem alike_liftExcept (x : Outcome α) :
    Alike inv fun _ : ι => (liftExcept x : Resolving (StateM σ) α) :=
  alike_const (fun nodes => (x, nodes)) fun _ _ => by cases x <;> rfl

/-- Operations with the same answer leave the nodes alone. -/
theorem alike_lift {x : ι → Action σ α} {answer : Outcome α}
    (all : ∀ i, Action.Answers inv (x i) answer) :
    Alike inv fun i => (ExceptT.mk (StateT.lift (x i).run) : Resolving (StateM σ) α) := by
  refine fun nodes => ⟨(answer, nodes), fun i w h => ?_⟩
  obtain ⟨v, run, kept⟩ := all i w h
  refine ⟨v, ?_, kept⟩
  change (match (x i).run w with
    | (result, v) => ((result, nodes), v)) = _
  rw [show (x i).run w = (answer, v) from run]

theorem Alike.bind {x : ι → Resolving (StateM σ) α} {f : ι → α → Resolving (StateM σ) β}
    (hx : Alike inv x) (hf : ∀ a, Alike inv fun i => f i a) : Alike inv fun i => x i >>= f i := by
  intro nodes
  -- the first runs end alike, so the second ones start from the same nodes
  obtain ⟨⟨e | a, ns⟩, first⟩ := hx nodes
  · refine ⟨(.error e, ns), fun i w h => ?_⟩
    obtain ⟨v, run, kept⟩ := first i w h
    exact ⟨v, by rw [runFrom_bind, run], kept⟩
  · obtain ⟨result, second⟩ := hf a ns
    refine ⟨result, fun i w h => ?_⟩
    obtain ⟨v, run, kept⟩ := first i w h
    rw [runFrom_bind, run]
    exact second i v kept

theorem Alike.foldlM {f : ι → β → α → Resolving (StateM σ) β}
    (each : ∀ b a, Alike inv fun i => f i b a) :
    ∀ (items : List α) (b : β), Alike inv fun i => items.foldlM (f i) b
  | [], b => alike_pure b
  | a :: rest, b => by
      simp only [List.foldlM_cons]
      exact (each b a).bind fun next => Alike.foldlM each rest next

theorem Alike.forM {f : ι → α → Resolving (StateM σ) PUnit}
    (each : ∀ a, Alike inv fun i => f i a) :
    ∀ items : List α, Alike inv fun i => items.forM (f i)
  | [] => alike_pure PUnit.unit
  | a :: rest => (each a).bind fun _ => Alike.forM each rest

theorem Alike.mapM {f : ι → α → Resolving (StateM σ) β}
    (each : ∀ a, Alike inv fun i => f i a) :
    ∀ items : List α, Alike inv fun i => items.mapM (f i)
  | [] => alike_pure []
  | a :: rest => by
      simp only [List.mapM_cons]
      refine (each a).bind fun b => ?_
      exact (Alike.mapM each rest).bind fun bs => alike_pure (b :: bs)

end Resolving

namespace SchemaRegistry

open Resolving

variable {σ ι : Type} {inv : σ → Prop} {r : ι → SchemaRegistry (StateM σ)}
  {answer : String → Outcome Schema}
  (answers : ∀ i table, Action.Answers inv ((r i).getSchema table none) (answer table))

include answers

theorem alike_hopNode (current : Schema) (path hop : String) :
    Alike inv fun i => (r i).hopNode current path hop := by
  refine alike_get.bind fun nodes => ?_
  split
  · exact alike_pure _
  · split
    · exact alike_throw _
    · refine (alike_lift fun i => answers i hop).bind fun schema => ?_
      exact (alike_modify _).bind fun _ => alike_pure _

theorem alike_walk (t : Terminal) :
    ∀ (hops : List String) (current : Schema) (before : String),
      Alike inv fun i => (r i).walk t current before hops
  | [], _, _ => alike_pure ()
  | hop :: rest, current, before => by
      simp only [walk]
      generalize (if before = "" then hop else before ++ "." ++ hop) = path
      -- the hop is alike, and the walk goes on from the schema of its node
      refine (alike_hopNode answers current path hop).bind fun n => ?_
      have others := alike_walk t rest n.schema path
      split
      · cases t.apply n with
        | ok n' => exact (alike_modify _).bind fun _ => others
        | error e => exact (alike_throw e).bind fun _ => others
      · exact others

theorem alike_resolveField (s : Schema) (field : String) :
    Alike inv fun i => (r i).resolveField s field :=
  (alike_liftExcept _).bind fun _ => alike_walk answers _ _ _ _

theorem alike_resolveWhere (s : Schema) (c : WhereCondition) :
    Alike inv fun i => (r i).resolveWhere s c := by
  refine (alike_liftExcept _).bind fun split => ?_
  refine (alike_walk answers _ _ _ _).bind fun _ => ?_
  exact alike_get.bind fun nodes => alike_pure _

theorem alike_resolveRelation (s : Schema) (path : String) :
    Alike inv fun i => (r i).resolveRelation s path := by
  simp only [resolveRelation]
  split
  · exact (alike_throw _).bind fun _ => alike_walk answers _ _ _ _
  · exact alike_walk answers _ _ _ _

theorem alike_readParam (l : QueryLimits) (s : Schema) (draft : QueryDraft)
    (param : String × String) : Alike inv fun i => (r i).readParam l s draft param := by
  obtain ⟨name, value⟩ := param
  simp only [readParam]
  split
  · refine (alike_liftExcept _).bind fun found => ?_
    refine (Alike.forM (alike_resolveField answers s) _).bind fun _ => ?_
    split
    · exact alike_pure _
    · exact alike_pure _
  · exact (Alike.forM (alike_resolveRelation answers s) _).bind fun _ => alike_pure _
  · exact (alike_liftExcept _).bind fun _ => alike_pure _
  · exact (alike_liftExcept _).bind fun _ => alike_pure _
  · exact (alike_liftExcept _).bind fun _ => alike_pure _
  · refine (alike_liftExcept _).bind fun _ => ?_
    exact (alike_liftExcept _).bind fun _ => alike_pure _
  · exact alike_pure _

theorem alike_validateWhere (s : Schema) (c : WhereCondition) :
    Alike inv fun i => (r i).validateWhere s c := by
  simp only [validateWhere]
  split
  · exact alike_resolveWhere answers s c
  · exact alike_liftExcept _

/-- Requests are read alike. -/
theorem alike_readQuery (l : QueryLimits) (s : Schema) (params : List (String × String)) :
    Alike inv fun i => (r i).readQuery l s params := by
  refine (Alike.foldlM (alike_readParam answers l s) params _).bind fun draft => ?_
  refine (Alike.mapM (alike_validateWhere answers s) draft.conditions).bind fun conditions => ?_
  exact alike_get.bind fun nodes => alike_pure _

/-- **A request is answered alike.** -/
theorem exists_answers_parseQuery (l : QueryLimits) (s : Schema) (params : List (String × String)) :
    ∃ result, ∀ i, Action.Answers inv ((r i).parseQuery l s params) result := by
  obtain ⟨⟨result, nodes⟩, read⟩ := alike_readQuery answers l s params []
  refine ⟨result, fun i w h => ?_⟩
  obtain ⟨v, run, kept⟩ := read i w h
  exact ⟨v, by rw [runFrom_parseQuery, run], kept⟩

end SchemaRegistry

end DataAccess
