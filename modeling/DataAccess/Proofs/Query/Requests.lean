import DataAccess.Query.Request
import DataAccess.Proofs.Action
import DataAccess.Proofs.Query.Framing
import DataAccess.Proofs.Query.Markers
/-
**How a request is read.**  The parameters of a request are folded into a draft, and only then are its
conditions checked.  Over a state both are runs from an empty list of nodes.

Main definitions:

* `QueryDraft.start` — the draft that reading begins with;
* `SchemaRegistry.readQuery` — the reading of a request, nodes included;
* `SchemaRegistry.ParamRead` — what a parameter that is read does;
* `WindowFree` — parameters that leave the window of a request alone;
* `SchemaRegistry.SetsWindow` — a parameter that sets it, or is refused.

Main results:

* `SchemaRegistry.runFrom_parseQuery` — a request is what its reading returns;
* `SchemaRegistry.readQuery_condition` — a request of one condition on the base table;
* `Schema.validateFields_iff` — which fields are accepted, and how they are set apart;
* `SchemaRegistry.returns_readParam` — a parameter that is read is of one of seven kinds;
* `SchemaRegistry.returns_parseQuery` — an accepted request in its two parts;
* `SchemaRegistry.readQuery_window` — **a window can be asked for anywhere among the parameters**.
-/

set_option autoImplicit false

namespace DataAccess

/-- The draft that reading begins with. -/
def QueryDraft.start (l : QueryLimits) : QueryDraft :=
  { fields := none, conditions := [], sort := [], limit := l.standard, offset := 0 }

namespace SchemaRegistry

variable {σ : Type} (r : SchemaRegistry (StateM σ)) (l : QueryLimits) (s : Schema)

open DataAccess.Action

/-- A draft with its conditions checked. -/
def checkDraft (draft : QueryDraft) : Resolving (StateM σ) Query := do
  let conditions ← draft.conditions.mapM (r.validateWhere s)
  return { draft with conditions, relations := ← get }

/-- The reading of a request: its parameters, then its conditions. -/
def readQuery (params : List (String × String)) : Resolving (StateM σ) Query := do
  r.checkDraft s (← params.foldlM (r.readParam l s) (QueryDraft.start l))

/-- A request is what its reading returns. -/
theorem runFrom_parseQuery (params : List (String × String)) (w : σ) :
    runFrom (r.parseQuery l s params) w =
      match (r.readQuery l s params).runFrom [] w with
      | ((result, _), v) => (result, v) := by
  rcases run : (r.readQuery l s params).runFrom [] w with ⟨⟨result, nodes⟩, v⟩
  have lifted : runFrom (ExceptT.lift ((r.readQuery l s params).run.run [])) w =
      (.ok (result, nodes), v) := by
    rw [runFrom_lift]
    exact congrArg (fun p => (Except.ok p.1, p.2)) run
  have parts : r.parseQuery l s params = ExceptT.lift ((r.readQuery l s params).run.run []) >>=
      fun p => liftExcept p.1 := rfl
  rw [parts, runFrom_bind, lifted]
  exact runFrom_liftExcept result v

end SchemaRegistry

/-! ### The fields of a request -/

namespace Schema

variable {s : Schema} {fields plain deep : List String}

/-- The loop over the fields, with the plain and the dotted ones found so far. -/
theorem validateFields_go_iff {before beside : List String} :
    validateFields.go s before beside fields = .ok (plain, deep) ↔
      (∀ field ∈ fields, '.' ∉ field.toList → s.hasColumn field = true) ∧
        plain = (fields.filter fun field => '.' ∉ field.toList).foldl addNew before ∧
        deep = beside ++ fields.filter fun field => '.' ∈ field.toList := by
  induction fields generalizing before beside with
  | nil =>
      rw [validateFields.go, Except.ok.injEq, Prod.mk.injEq, eq_comm (a := before),
        eq_comm (a := beside)]
      simp
  | cons field rest ih =>
      rw [validateFields.go]
      by_cases dotted : '.' ∈ field.toList
      · rw [if_pos (List.contains_iff_mem.2 dotted), ih]
        simp [dotted]
      · rw [if_neg (by simpa using dotted)]
        cases known : s.hasColumn field with
        | true =>
            rw [if_pos rfl, ih]
            simp [dotted, known]
        | false => simp [dotted, known]

/-- Fields are accepted when those without a dot are columns; each of these counts once, and those with
a dot are left to the relations. -/
theorem validateFields_iff : s.validateFields fields = .ok (plain, deep) ↔
    (∀ field ∈ fields, '.' ∉ field.toList → s.hasColumn field = true) ∧
      plain = (fields.filter fun field => '.' ∉ field.toList).eraseDups ∧
      deep = fields.filter fun field => '.' ∈ field.toList := by
  rw [validateFields, validateFields_go_iff, foldl_addNew, newNames]
  simp

end Schema

/-! ### What one parameter does

A parameter that is read is one of seven kinds.  What it does to a draft and to the nodes is said once;
whatever is to be known of a request that is read is then a case for each kind. -/

/-- The parameters that are no conditions. -/
def reservedNames : List String := ["fields", "relations", "sort", "limit", "offset", "page"]

/-- A draft with more fields in its projection; without any it stays as it is. -/
def QueryDraft.project (d : QueryDraft) (names : List String) : QueryDraft :=
  { d with fields := if names.isEmpty then d.fields else some (d.fields.getD [] ++ names) }

@[simp] theorem QueryDraft.getD_fields_project (d : QueryDraft) (names : List String) :
    (d.project names).fields.getD [] = d.fields.getD [] ++ names := by
  cases names with
  | nil => simp [project]
  | cons name rest => simp [project]

namespace SchemaRegistry

open Resolving

/-- A parameter under any other name is a condition. -/
theorem readParam_unreserved {m : Type → Type} [Monad m] (r : SchemaRegistry m) {l : QueryLimits}
    {s : Schema} {name : String} (unreserved : name ∉ reservedNames) (value : String)
    (d : QueryDraft) : r.readParam l s d (name, value) =
      pure { d with conditions := d.conditions ++ [.ofParam name value] } := by
  simp only [reservedNames, List.mem_cons, not_or] at unreserved
  obtain ⟨fields, relations, sort, limit, offset, page, -⟩ := unreserved
  simp only [readParam]

variable {σ : Type}

/-- What a parameter that is read does to a draft and to the nodes. -/
inductive ParamRead (r : SchemaRegistry (StateM σ)) (l : QueryLimits) (s : Schema) (d : QueryDraft)
    (nodes : List RelationNode) (w : σ) :
    String × String → QueryDraft → List RelationNode → σ → Prop
  | fields {value : String} {plain deep : List String} {nodes' : List RelationNode} {w' : σ}
      (valid : s.validateFields (splitList value) = .ok (plain, deep))
      (resolved : Returns (deep.forM (r.resolveField s)) nodes w ⟨⟩ nodes' w') :
      ParamRead r l s d nodes w ("fields", value) (d.project plain) nodes' w'
  | relations {value : String} {nodes' : List RelationNode} {w' : σ}
      (resolved : Returns ((splitList value).forM (r.resolveRelation s)) nodes w ⟨⟩ nodes' w') :
      ParamRead r l s d nodes w ("relations", value) d nodes' w'
  | sort {value : String} {clauses : List SortCondition} (parsed : s.parseSort value = .ok clauses) :
      ParamRead r l s d nodes w ("sort", value) { d with sort := d.sort ++ clauses } nodes w
  | limit {value : String} {limit : Nat}
      (counted : parseCount "limit" value = .ok limit) (checked : l.check limit = .ok limit) :
      ParamRead r l s d nodes w ("limit", value) { d with limit } nodes w
  | offset {value : String} {offset : Nat} (counted : parseCount "offset" value = .ok offset) :
      ParamRead r l s d nodes w ("offset", value) { d with offset } nodes w
  | page {value : String} {v : Window} (decoded : Window.decode value = .ok v)
      (checked : l.check v.limit = .ok v.limit) :
      ParamRead r l s d nodes w ("page", value) { d with limit := v.limit, offset := v.offset }
        nodes w
  | condition {name value : String} (unreserved : name ∉ reservedNames) :
      ParamRead r l s d nodes w (name, value)
        { d with conditions := d.conditions ++ [.ofParam name value] } nodes w

variable {r : SchemaRegistry (StateM σ)} {l : QueryLimits} {s : Schema}

/-- A parameter that is read does one of these. -/
theorem returns_readParam {d d' : QueryDraft} {p : String × String}
    {nodes nodes' : List RelationNode} {w w' : σ}
    (h : Returns (r.readParam l s d p) nodes w d' nodes' w') :
    ParamRead r l s d nodes w p d' nodes' w' := by
  obtain ⟨name, value⟩ := p
  by_cases reserved : name ∈ reservedNames
  · simp only [reservedNames, List.mem_cons, List.not_mem_nil, or_false] at reserved
    obtain rfl | rfl | rfl | rfl | rfl | rfl := reserved
    · -- fields
      obtain ⟨⟨plain, deep⟩, ns, v, found, h⟩ := returns_bind.1 h
      obtain ⟨valid, rfl, rfl⟩ := returns_liftExcept.1 found
      obtain ⟨_, ns, v, resolved, h⟩ := returns_bind.1 h
      have projected : Returns (pure (d.project plain)) ns v d' nodes' w' := by
        rw [QueryDraft.project]
        cases plain with
        | nil => exact h
        | cons name rest => exact h
      obtain ⟨rfl, rfl, rfl⟩ := returns_pure.1 projected
      exact .fields valid resolved
    · -- relations
      obtain ⟨_, ns, v, resolved, h⟩ := returns_bind.1 h
      obtain ⟨rfl, rfl, rfl⟩ := returns_pure.1 h
      exact .relations resolved
    · -- sort
      obtain ⟨clauses, ns, v, parsed, h⟩ := returns_bind.1 h
      obtain ⟨valid, rfl, rfl⟩ := returns_liftExcept.1 parsed
      obtain ⟨rfl, rfl, rfl⟩ := returns_pure.1 h
      exact .sort valid
    · -- limit
      obtain ⟨limit, ns, v, accepted, h⟩ := returns_bind.1 h
      obtain ⟨number, rfl, rfl⟩ := returns_liftExcept.1 accepted
      obtain ⟨rfl, rfl, rfl⟩ := returns_pure.1 h
      obtain ⟨n, counted, checked⟩ := Outcome.bind_eq_ok.1 number
      obtain ⟨rfl, -, -⟩ := QueryLimits.check_le checked
      exact .limit counted checked
    · -- offset
      obtain ⟨offset, ns, v, accepted, h⟩ := returns_bind.1 h
      obtain ⟨counted, rfl, rfl⟩ := returns_liftExcept.1 accepted
      obtain ⟨rfl, rfl, rfl⟩ := returns_pure.1 h
      exact .offset counted
    · -- page
      obtain ⟨window, ns, v, accepted, h⟩ := returns_bind.1 h
      obtain ⟨decoded, rfl, rfl⟩ := returns_liftExcept.1 accepted
      obtain ⟨limit, ns, v, accepted, h⟩ := returns_bind.1 h
      obtain ⟨checked, rfl, rfl⟩ := returns_liftExcept.1 accepted
      obtain ⟨rfl, rfl, rfl⟩ := returns_pure.1 h
      obtain ⟨rfl, -, -⟩ := QueryLimits.check_le checked
      exact .page decoded checked
  · rw [readParam_unreserved r reserved] at h
    obtain ⟨rfl, rfl, rfl⟩ := returns_pure.1 h
    exact .condition reserved

/-- An accepted request: its parameters leave a draft, and then the conditions of the draft hold up. -/
theorem returns_parseQuery {params : List (String × String)} {q : Query} {w w' : σ}
    (h : Action.Returns (r.parseQuery l s params) w q w') :
    ∃ d nodes v conditions relations,
      Returns (params.foldlM (r.readParam l s) (QueryDraft.start l)) [] w d nodes v ∧
      Returns (d.conditions.mapM (r.validateWhere s)) nodes v conditions relations w' ∧
      q = { d with conditions, relations } := by
  rw [Action.Returns, runFrom_parseQuery] at h
  rcases run : (r.readQuery l s params).runFrom [] w with ⟨⟨result, nodes⟩, v⟩
  rw [run] at h
  obtain ⟨rfl, rfl⟩ := Prod.mk.inj h
  obtain ⟨d, ns, u, read, run⟩ := returns_bind.1 run
  obtain ⟨conditions, ns', u', checked, run⟩ := returns_bind.1 run
  obtain ⟨relations, ns'', u'', got, run⟩ := returns_bind.1 run
  obtain ⟨rfl, rfl, rfl⟩ := returns_get.1 got
  obtain ⟨rfl, rfl, rfl⟩ := returns_pure.1 run
  exact ⟨d, ns, u, conditions, ns', read, checked, rfl⟩

end SchemaRegistry

/-! ### The window of a request

All parameters but three leave the window of a request alone, and none of these three touches anything
else.  So the window can be set before, between or after the others. -/

/-- A draft with another window. -/
def QueryDraft.at (d : QueryDraft) (v : Window) : QueryDraft :=
  { d with limit := v.limit, offset := v.offset }

/-- A request with another window. -/
def Query.at (q : Query) (v : Window) : Query := { q with limit := v.limit, offset := v.offset }

/-- The parameters that set a window. -/
def windowNames : List String := ["limit", "offset", "page"]

/-- Parameters that leave the window of a request alone. -/
def WindowFree (params : List (String × String)) : Prop := ∀ p ∈ params, p.1 ∉ windowNames

namespace SchemaRegistry

variable {σ : Type} (r : SchemaRegistry (StateM σ)) (l : QueryLimits) (s : Schema)

open DataAccess.Action

theorem readParam_at {p : String × String} (free : p.1 ∉ windowNames) (d : QueryDraft)
    (v : Window) : r.readParam l s (d.at v) p = (·.at v) <$> r.readParam l s d p := by
  obtain ⟨name, value⟩ := p
  simp only [windowNames, List.mem_cons, not_or] at free
  obtain ⟨limit, offset, page, -⟩ := free
  simp only [readParam]
  split
  · simp only [map_bind]
    refine bind_congr fun found => bind_congr fun _ => ?_
    split
    · rw [map_pure]
    · rw [map_pure]
      rfl
  · simp only [map_bind, map_pure]
  · simp only [map_bind, map_pure]
    rfl
  · exact absurd rfl limit
  · exact absurd rfl offset
  · exact absurd rfl page
  · rw [map_pure]
    rfl

theorem foldlM_readParam_at (v : Window) {params : List (String × String)}
    (free : WindowFree params) (d : QueryDraft) :
    params.foldlM (r.readParam l s) (d.at v) = (·.at v) <$> params.foldlM (r.readParam l s) d := by
  induction params generalizing d with
  | nil => rw [List.foldlM_nil, List.foldlM_nil, map_pure]
  | cons p rest ih =>
      have others : WindowFree rest := fun p member => free p (List.mem_cons_of_mem _ member)
      rw [List.foldlM_cons, List.foldlM_cons, r.readParam_at l s (free p List.mem_cons_self),
        bind_map_left, map_bind]
      exact bind_congr fun next => ih others next

theorem checkDraft_at (v : Window) (d : QueryDraft) :
    r.checkDraft s (d.at v) = (·.at v) <$> r.checkDraft s d := by
  simp only [checkDraft, map_bind, map_pure]
  rfl

/-- From the window that reading begins with, a parameter moves a draft to a window, or it is refused. -/
def SetsWindow (p : String × String) (window : Outcome Window) : Prop :=
  ∀ d : QueryDraft, r.readParam l s (d.at ⟨l.standard, 0⟩) p = liftExcept (d.at <$> window)

variable {r l s} {before after : List (String × String)} {p : String × String}
  {window : Outcome Window}

/-- **A window can be asked for anywhere among the parameters.** -/
theorem readQuery_window (sets : r.SetsWindow l s p window) (first : WindowFree before)
    (last : WindowFree after) : r.readQuery l s (before ++ p :: after) = (do
      let draft ← before.foldlM (r.readParam l s) (QueryDraft.start l)
      let v ← liftExcept window
      (·.at v) <$> (after.foldlM (r.readParam l s) draft >>= r.checkDraft s)) := by
  -- the parameters in front leave the window where reading begins
  have still : before.foldlM (r.readParam l s) (QueryDraft.start l) =
      (·.at ⟨l.standard, 0⟩) <$> before.foldlM (r.readParam l s) (QueryDraft.start l) :=
    r.foldlM_readParam_at l s ⟨l.standard, 0⟩ first (QueryDraft.start l)
  rw [readQuery, List.foldlM_append, bind_assoc]
  conv =>
    lhs
    rw [still, bind_map_left]
  refine bind_congr fun draft => ?_
  rw [List.foldlM_cons, sets draft]
  cases window with
  | error e => rfl
  | ok v =>
      change after.foldlM (r.readParam l s) (draft.at v) >>= r.checkDraft s =
        (·.at v) <$> (after.foldlM (r.readParam l s) draft >>= r.checkDraft s)
      rw [r.foldlM_readParam_at l s v last, bind_map_left, map_bind]
      exact bind_congr fun next => r.checkDraft_at s v next

/-- A request for a window is the request without it, moved to the window. -/
theorem answers_parseQuery_window {inv : σ → Prop} {v : Window} {result : Outcome Query}
    (sets : r.SetsWindow l s p (.ok v)) (first : WindowFree before) (last : WindowFree after)
    (answers : Answers inv (r.parseQuery l s (before ++ after)) result) :
    Answers inv (r.parseQuery l s (before ++ p :: after)) ((·.at v) <$> result) := by
  have moved : r.readQuery l s (before ++ p :: after) =
      (·.at v) <$> r.readQuery l s (before ++ after) := by
    rw [readQuery_window sets first last, readQuery, List.foldlM_append, bind_assoc, map_bind]
    rfl
  intro w h
  obtain ⟨w', run, kept⟩ := answers w h
  refine ⟨w', ?_, kept⟩
  rw [runFrom_parseQuery] at run ⊢
  rw [moved, Resolving.runFrom_map]
  generalize (r.readQuery l s (before ++ after)).runFrom [] w = end_ at run ⊢
  obtain ⟨⟨found, nodes⟩, v'⟩ := end_
  obtain ⟨rfl, rfl⟩ := Prod.mk.inj run
  rfl

/-- A request whose window is refused fails. -/
theorem returns_parseQuery_window {q : Query} {w w' : σ} (sets : r.SetsWindow l s p window)
    (first : WindowFree before) (last : WindowFree after)
    (h : Returns (r.parseQuery l s (before ++ p :: after)) w q w') : ∃ v, window = .ok v := by
  cases window with
  | ok v => exact ⟨v, rfl⟩
  | error e =>
      rw [Action.Returns, runFrom_parseQuery, readQuery_window sets first last] at h
      generalize run : Resolving.runFrom _ [] w = end_ at h
      obtain ⟨⟨result, nodes⟩, v⟩ := end_
      obtain ⟨rfl, rfl⟩ := Prod.mk.inj h
      obtain ⟨draft, ns, u, -, refused⟩ := Resolving.returns_bind.1 run
      obtain ⟨_, _, _, lifted, -⟩ := Resolving.returns_bind.1 refused
      exact absurd (Resolving.returns_liftExcept.1 lifted).1 (by simp)

/-! ### Parameters that set a window -/

theorem setsWindow_limit (text : String) :
    r.SetsWindow l s ("limit", text) ((⟨·, 0⟩) <$> (parseCount "limit" text >>= l.check)) := by
  intro d
  simp only [readParam]
  cases parseCount "limit" text >>= l.check <;> rfl

theorem setsWindow_page (token : String) :
    r.SetsWindow l s ("page", token)
      (Window.decode token >>= fun v => (⟨·, v.offset⟩) <$> l.check v.limit) := by
  intro d
  simp only [readParam]
  cases Window.decode token with
  | error e => rfl
  | ok v =>
      change (liftExcept (l.check v.limit) >>= fun limit =>
          (pure { d with limit, offset := v.offset } : Resolving (StateM σ) QueryDraft)) =
        liftExcept (d.at <$> (fun limit => (⟨limit, v.offset⟩ : Window)) <$> l.check v.limit)
      cases l.check v.limit <;> rfl

end SchemaRegistry

/-- A parameter that names a window: where it is accepted it asks for no other one. -/
def Names (l : QueryLimits) (p : String × String) (v : Window) : Prop :=
  ∃ window : Outcome Window, (∀ u, window = .ok u → u = v ∧ 0 < v.limit) ∧
    ∀ {σ : Type} (r : SchemaRegistry (StateM σ)) (s : Schema), r.SetsWindow l s p window

/-- A written limit names the first window. -/
theorem names_limit (l : QueryLimits) (limit : Nat) :
    Names l ("limit", toString limit) ⟨limit, 0⟩ := by
  refine ⟨_, fun u accepted => ?_, fun r s => SchemaRegistry.setsWindow_limit _⟩
  obtain ⟨n, number, rfl⟩ := Outcome.map_eq_ok.1 accepted
  obtain ⟨k, counted, checked⟩ := Outcome.bind_eq_ok.1 number
  have letters : (toString limit).toList = Nat.toDigits 10 limit := String.toList_ofList
  have read : k = limit := by
    rw [parseCount, letters, trim_toDigits, parseUnsigned?_toDigits] at counted
    split at counted
    · next found =>
      obtain ⟨-, same⟩ := Option.ite_none_right_eq_some.1 found
      rw [← Except.ok.inj counted, Option.some.inj same]
    · exact absurd counted (by simp)
  obtain ⟨rfl, positive, -⟩ := QueryLimits.check_le checked
  subst read
  exact ⟨rfl, positive⟩

/-- A marker names its window. -/
theorem names_page (l : QueryLimits) (v : Window) : Names l ("page", v.encode) v := by
  refine ⟨_, fun u accepted => ?_, fun r s => SchemaRegistry.setsWindow_page _⟩
  obtain ⟨decoded, read, sized⟩ := Outcome.bind_eq_ok.1 accepted
  obtain ⟨n, checked, rfl⟩ := Outcome.map_eq_ok.1 sized
  obtain ⟨rfl, positive, -⟩ := QueryLimits.check_le checked
  rw [← Window.eq_of_decode_encode read]
  exact ⟨rfl, positive⟩

end DataAccess
