import DataAccess.Proofs.Query.Compiling
import DataAccess.Proofs.Schema.ReadBack
/-
**What checking does to conditions.**  Conditions are checked one after another, and each comes back
with its operand in the normal form of its field.  A dotted condition takes a detour: its operand is
checked at the node of its last hop, stored there, and read back.  The node keeps the latest condition
only, and the right one is read back as long as a table has one node.  A condition in normal form is
its own normal form, so checking it again changes nothing.

Main definitions:

* `WhereCondition.Normal` — a condition and its normal form, at the table that it addresses.

Main results:

* `Schema.checkOperand_again` — a normalised operand is accepted as it is;
* `SchemaRegistry.returns_walk_end` — a walk depends on its end at one node only;
* `SchemaRegistry.returns_walk_joined` — a walk along joined tables is its end at the last node;
* `SchemaRegistry.returns_validateWhere_normal` — one condition comes back in normal form;
* `SchemaRegistry.validateAll_normal` — **conditions come back in order and in normal form, and again
  so when they are checked again**.
-/

set_option autoImplicit false

namespace DataAccess

open RelationNode

/-! ### Operands -/

/-- What is handled item by item without a change is handled without a change. -/
theorem Outcome.mapM_again {ε α : Type} {f : α → Except ε α}
    (again : ∀ a b, f a = .ok b → f b = .ok b) {items results : List α}
    (h : items.mapM f = .ok results) : results.mapM f = .ok results := by
  induction items generalizing results with
  | nil =>
      obtain rfl := Outcome.mapM_nil_eq_ok.1 h
      rfl
  | cons a rest ih =>
      obtain ⟨b, more, first, others, rfl⟩ := Outcome.mapM_cons_eq_ok.1 h
      exact Outcome.mapM_cons_eq_ok.2 ⟨b, more, again a b first, ih others, rfl⟩

namespace Schema

theorem validateValue_again {s : Schema} {field : String} {v n : Json}
    (h : s.validateValue field v = .ok n) : s.validateValue field n = .ok n := by
  obtain ⟨column, found, checked⟩ := validateValue_eq_ok.1 h
  exact validateValue_eq_ok.2 ⟨column, found, checkValue_of_accepted checked⟩

/-- A normalised operand is accepted as it is. -/
theorem checkOperand_again {s : Schema} {field : String} {c : WhereCondition} {value : Json}
    (h : s.checkOperand field c = .ok value) :
    s.checkOperand field { c with value } = .ok value := by
  have listed (h : (c.values.mapM (s.validateValue field)).map Json.array = .ok value) :
      ((listValues value).mapM (s.validateValue field)).map Json.array = .ok value := by
    obtain ⟨items, checked, rfl⟩ := Outcome.map_eq_ok.1 h
    rw [listValues_array, Outcome.mapM_again (fun _ _ => validateValue_again) checked]
    rfl
  rw [checkOperand] at h ⊢
  cases operator : c.operator with
  | null | notNull =>
      simp only [operator] at h ⊢
      exact h
  | isIn | notIn =>
      simp only [operator] at h ⊢
      exact listed h
  | search =>
      simp only [operator] at h ⊢
      split at h
      · next known =>
        rw [if_pos known]
        split at h
        · obtain rfl := Except.ok.inj h
          rfl
        · exact absurd h (by simp)
        · obtain rfl := Except.ok.inj h
          rfl
      · exact absurd h (by simp)
  | equals | notEquals | gt | gte | lt | lte =>
      simp only [operator] at h ⊢
      exact validateValue_again h

end Schema

/-! ### Normal forms -/

/-- A condition and its normal form: only the operand changes, to what the check against the schema of
its table makes of it.  That is the base schema, or the schema of the one node that its path leads
to. -/
def WhereCondition.Normal (s : Schema) (nodes : List RelationNode) (c c' : WhereCondition) : Prop :=
  ∃ value, c' = { c with value } ∧
    match c.path? with
    | none => s.hasColumn c.column = true ∧ s.checkOperand c.column c = .ok value
    | some (path, field) => ∃ n, Addresses nodes path n ∧ n.schema.checkOperand field c = .ok value

/-- Later nodes do not change what a condition comes back as. -/
theorem WhereCondition.Normal.kept {s : Schema} {c c' : WhereCondition}
    {nodes ns : List RelationNode} (normal : c.Normal s nodes c') (merged : Merged ns)
    (kept : Kept nodes ns) : c.Normal s ns c' := by
  obtain ⟨value, rfl, checked⟩ := normal
  refine ⟨value, rfl, ?_⟩
  cases cut : c.path? with
  | none =>
      rw [cut] at checked
      exact checked
  | some pieces =>
      rw [cut] at checked
      obtain ⟨n, addressed, checked⟩ := checked
      obtain ⟨n', member, same⟩ := kept.exists_mem addressed.member
      have tables : n'.table = lastHop pieces.1 :=
        (congrArg Prod.fst same).trans addressed.table_eq
      have joined : n'.table ∈ ns.map RelationNode.table := List.mem_map_of_mem member
      obtain ⟨k, addressed'⟩ := merged.addresses (tables ▸ joined)
      obtain rfl := addressed'.unique n' member tables
      have schemas : n'.schema = n.schema := congrArg (fun e => e.2.2) same
      exact ⟨n', addressed', schemas ▸ checked⟩

/-- The node that a path leads to is the first one of its table. -/
theorem RelationNode.Addresses.find?_table {nodes : List RelationNode} {path : String}
    {n : RelationNode} (addressed : Addresses nodes path n) :
    nodes.find? (fun k => k.table = lastHop path) = some n := by
  cases found : nodes.find? (fun k => k.table = lastHop path) with
  | none =>
      have joined : n.table ∈ nodes.map table := List.mem_map_of_mem addressed.member
      exact absurd (addressed.table_eq ▸ joined) (find?_eq_none_iff.1 found)
  | some k =>
      obtain ⟨member, tables⟩ := mem_of_find? found
      rw [addressed.unique k member tables]

namespace Resolving

variable {σ α β : Type} {ns : List RelationNode}

/-- From all nodes that come behind these, a run returns the same, asks for nothing, and joins no
further table. -/
def Stays (x : Resolving (StateM σ) α) (ns : List RelationNode) (a : α) : Prop :=
  ∀ nodes w, Merged nodes → Kept ns nodes → ∃ nodes', Returns x nodes w a nodes' w ∧
    Merged nodes' ∧ nodes'.map edge = nodes.map edge

theorem stays_pure (a : α) : Stays (pure a : Resolving (StateM σ) α) ns a := by
  intro nodes w merged _
  exact ⟨nodes, returns_pure.2 ⟨rfl, rfl, rfl⟩, merged, rfl⟩

theorem Stays.bind {x : Resolving (StateM σ) α} {f : α → Resolving (StateM σ) β} {a : α} {b : β}
    (first : Stays x ns a) (next : Stays (f a) ns b) : Stays (x >>= f) ns b := by
  intro nodes w merged kept
  obtain ⟨ms, here, merged', same⟩ := first nodes w merged kept
  have kept' : Kept ns ms := by
    rw [Kept, same]
    exact kept
  obtain ⟨ms', later, merged'', same'⟩ := next ms w merged' kept'
  exact ⟨ms', returns_bind.2 ⟨a, ms, w, here, later⟩, merged'', same'.trans same⟩

/-- Further nodes do not matter. -/
theorem Stays.kept {x : Resolving (StateM σ) α} {a : α} {ns' : List RelationNode}
    (stays : Stays x ns a) (kept : Kept ns ns') : Stays x ns' a := by
  intro nodes w merged kept'
  exact stays nodes w merged (kept.trans kept')

end Resolving

namespace SchemaRegistry

open Resolving

variable {σ : Type} {r : SchemaRegistry (StateM σ)} {s : Schema}

/-! ### The end of a walk -/

/-- A walk depends on its end at one node only: whatever makes the same of this node is walked
alike. -/
theorem returns_walk_end {t : Terminal} {current : Schema} {before : String} {hops : List String}
    {nodes ns : List RelationNode} {w w' : σ} (some_hop : hops ≠ [])
    (h : Returns (r.walk t current before hops) nodes w () ns w') :
    ∃ n n', t.apply n = .ok n' ∧ n' ∈ ns ∧ hops.getLast? = some n'.table ∧
      ∀ t' : Terminal, t'.apply n = .ok n' →
        Returns (r.walk t' current before hops) nodes w () ns w' := by
  induction hops generalizing current before nodes w with
  | nil => exact absurd rfl some_hop
  | cons hop rest ih =>
      obtain ⟨n, ms, v, here, h⟩ := returns_bind.1 h
      obtain ⟨first, -⟩ := returns_hopNode here
      obtain ⟨member, named⟩ := mem_of_find? first
      cases rest with
      | nil =>
          simp only [List.isEmpty_nil, if_true] at h
          cases applied : t.apply n with
          | error e =>
              simp only [applied] at h
              obtain ⟨_, _, _, refused, -⟩ := returns_bind.1 h
              exact absurd refused returns_throw
          | ok n' =>
              simp only [applied] at h
              obtain ⟨_, ms', v', set, done⟩ := returns_bind.1 h
              obtain ⟨rfl, rfl⟩ := returns_modify.1 set
              obtain ⟨-, rfl, rfl⟩ := returns_pure.1 done
              have there : hop ∈ ms.map table := named ▸ List.mem_map_of_mem member
              have tables : n'.table = hop :=
                (congrArg Prod.fst (Terminal.apply_edge applied)).trans named
              refine ⟨n, n', applied, mem_update_self there, by rw [tables]; rfl, ?_⟩
              intro t' applied'
              refine returns_bind.2 ⟨n, ms, v, here, ?_⟩
              simp only [List.isEmpty_nil, if_true, applied']
              exact h
      | cons next rest =>
          obtain ⟨k, k', applied, there, last, alike⟩ := ih (by simp) h
          refine ⟨k, k', applied, there, by rw [List.getLast?_cons_cons, last], ?_⟩
          intro t' applied'
          exact returns_bind.2 ⟨n, ms, v, here, alike t' applied'⟩

/-- A walk along joined tables asks for nothing and is its end at the last node. -/
theorem returns_walk_joined {t : Terminal} {hops : List String} {nodes : List RelationNode}
    {last : String} {n n' : RelationNode} (joined : ∀ hop ∈ hops, hop ∈ nodes.map table)
    (ends : hops.getLast? = some last) (first : nodes.find? (fun k => k.table = last) = some n)
    (applied : t.apply n = .ok n') (current : Schema) (before : String) (w : σ) :
    Returns (r.walk t current before hops) nodes w () (update last (fun _ => n') nodes) w := by
  induction hops generalizing current before with
  | nil => exact absurd ends (by simp)
  | cons hop rest ih =>
      obtain ⟨k, found⟩ : ∃ k, nodes.find? (fun k => k.table = hop) = some k := by
        rw [← Option.isSome_iff_exists, Option.isSome_iff_ne_none, ne_eq, find?_eq_none_iff]
        exact not_not.2 (joined hop List.mem_cons_self)
      refine returns_bind.2 ⟨k, nodes, w, ?_, ?_⟩
      · rw [Returns, runFrom_hopNode, found]
      · cases rest with
        | nil =>
            obtain rfl := Option.some.inj ends
            obtain rfl := Option.some.inj (found.symm.trans first)
            simp only [List.isEmpty_nil, if_true, applied]
            exact returns_bind.2 ⟨⟨⟩, _, w, returns_modify.2 ⟨rfl, rfl⟩,
              returns_pure.2 ⟨rfl, rfl, rfl⟩⟩
        | cons next rest =>
            refine ih ?_ ends k.schema _
            intro later member
            exact joined later (List.mem_cons_of_mem _ member)

/-! ### One condition -/

/-- A dotted condition that is resolved was walked, and came back as it was stored or as given. -/
theorem returns_resolveWhere {c c' : WhereCondition} {nodes ns : List RelationNode} {w w' : σ} :
    Returns (r.resolveWhere s c) nodes w c' ns w' ↔
      ∃ hops terminal, splitTerminal c.column = .ok (hops, terminal) ∧
        Returns (r.walk (.condition c) s "" hops) nodes w () ns w' ∧
        ((ns.reverse.find? fun n => hops.getLast? = some n.table).bind
          RelationNode.condition).getD c = c' := by
  constructor
  · intro h
    obtain ⟨⟨hops, terminal⟩, ms, v, cut, h⟩ := returns_bind.1 h
    obtain ⟨split, rfl, rfl⟩ := returns_liftExcept.1 cut
    obtain ⟨⟨⟩, ms, v, walked, h⟩ := returns_bind.1 h
    obtain ⟨last, ms', v', got, h⟩ := returns_bind.1 h
    obtain ⟨rfl, rfl, rfl⟩ := returns_get.1 got
    obtain ⟨read, rfl, rfl⟩ := returns_pure.1 h
    exact ⟨hops, terminal, split, walked, read⟩
  · rintro ⟨hops, terminal, split, walked, read⟩
    refine returns_bind.2 ⟨(hops, terminal), nodes, w, returns_liftExcept.2 ⟨split, rfl, rfl⟩, ?_⟩
    refine returns_bind.2 ⟨(), ns, w', walked, ?_⟩
    exact returns_bind.2 ⟨ns, ns, w', returns_get.2 ⟨rfl, rfl, rfl⟩, returns_pure.2 ⟨read, rfl, rfl⟩⟩

/-- What is stored at the node of the last hop is read back. -/
theorem returns_resolveWhere_of_walk {c c' : WhereCondition} {hops : List String} {terminal : String}
    {nodes ns : List RelationNode} {n : RelationNode} {w w' : σ}
    (split : splitTerminal c.column = .ok (hops, terminal))
    (walked : Returns (r.walk (.condition c) s "" hops) nodes w () ns w') (merged : Merged ns)
    (there : n ∈ ns) (last : hops.getLast? = some n.table) (stored : n.condition = some c') :
    Returns (r.resolveWhere s c) nodes w c' ns w' := by
  refine returns_resolveWhere.2 ⟨hops, terminal, split, walked, ?_⟩
  rw [last, merged.find?_reverse there, Option.bind_some, stored, Option.getD_some]

/-- A dotted condition comes back in normal form, and again so when it is resolved again. -/
theorem returns_resolveWhere_normal {c c' : WhereCondition} {nodes ns : List RelationNode} {w w' : σ}
    (merged : Merged nodes) (h : Returns (r.resolveWhere s c) nodes w c' ns w') :
    c.Normal s ns c' ∧ Returns (r.resolveWhere s c') nodes w c' ns w' ∧
      ∀ hop ∈ (Text.splitOn '.' c.column).dropLast, hop ∈ ns.map table := by
  obtain ⟨merged', -, -⟩ := (r.ends_resolveWhere s c merged).returns h
  obtain ⟨hops, terminal, split, walked, read⟩ := returns_resolveWhere.1 h
  obtain ⟨path, cut, same⟩ := splitTerminal_eq_ok split
  have cut' : c.path? = some (path, terminal) := cut
  have some_hop : hops ≠ [] := same ▸ Text.splitOn_ne_nil '.' path
  obtain ⟨n, n', applied, there, last, alike⟩ := returns_walk_end some_hop walked
  obtain ⟨value, checked, rfl⟩ := Outcome.map_eq_ok.1 applied
  have stored := returns_resolveWhere_of_walk split walked merged' there last rfl
  obtain rfl : { c with value } = c' := by
    obtain ⟨⟨⟨_⟩, -⟩, -⟩ := h.symm.trans stored
    rfl
  refine ⟨⟨value, rfl, ?_⟩, ?_, ?_⟩
  · rw [same, getLast?_splitOn, Option.some.injEq] at last
    have joined : lastHop path ∈ ns.map table := last ▸ List.mem_map_of_mem there
    obtain ⟨k, addressed⟩ := merged'.addresses joined
    obtain rfl := addressed.unique _ there last.symm
    rw [cut'] at checked ⊢
    exact ⟨_, addressed, checked⟩
  · refine returns_resolveWhere_of_walk split (alike _ ?_) merged' there last rfl
    exact congrArg (Except.map _) (Schema.checkOperand_again checked)
  · rw [← splitTerminal_hops split]
    exact (tables_walk walked).1

/-- A dotted condition comes back in normal form from every list of nodes that joins its tables. -/
theorem stays_resolveWhere {c c' : WhereCondition} {ns : List RelationNode} {hops : List String}
    {terminal : String} (split : splitTerminal c.column = .ok (hops, terminal))
    (normal : c.Normal s ns c') (joined : ∀ hop ∈ hops, hop ∈ ns.map table) :
    Stays (r.resolveWhere s c') ns c' := by
  intro nodes w merged kept
  obtain ⟨path, cut, same⟩ := splitTerminal_eq_ok split
  have cut' : c.path? = some (path, terminal) := cut
  obtain ⟨value, rfl, checked⟩ := normal.kept merged kept
  rw [cut'] at checked
  obtain ⟨n, addressed, checked⟩ := checked
  have first := addressed.find?_table
  have last : hops.getLast? = some (lastHop path) := same ▸ getLast?_splitOn path
  -- the operand is normal, so the node stores the condition as it is
  have applied : (Terminal.condition { c with value }).apply n =
      .ok { n with condition := some { c with value } } := by
    have again := Schema.checkOperand_again checked
    have field : WhereCondition.path? { c with value } = some (path, terminal) := cut
    simp only [Terminal.apply, field, Option.map_some, Option.getD_some, again]
    rfl
  have walked := returns_walk_joined (r := r) (fun hop member => kept.tables (joined hop member)) last
    first applied s "" w
  have fits := fits_condition (c := { c with value }) cut
  have edges := map_edge_update first (Terminal.apply_edge applied)
  subst same
  obtain ⟨merged', -, -⟩ := (r.ends_walkPath fits s merged).returns walked
  have there : lastHop path ∈ nodes.map table :=
    addressed.table_eq ▸ List.mem_map_of_mem addressed.member
  exact ⟨_, returns_resolveWhere_of_walk split walked merged' (mem_update_self there)
    (addressed.table_eq ▸ last) rfl, merged', edges⟩

/-! ### Conditions one after another -/

/-- A condition comes back in normal form, and again so when it is checked again. -/
theorem returns_validateWhere_normal {c c' : WhereCondition} {nodes ns : List RelationNode} {w w' : σ}
    (merged : Merged nodes) (h : Returns (r.validateWhere s c) nodes w c' ns w') :
    Merged ns ∧ Kept nodes ns ∧ c.Normal s ns c' ∧
      Returns (r.validateWhere s c') nodes w c' ns w' ∧ Stays (r.validateWhere s c') ns c' := by
  rw [validateWhere] at h
  split at h
  · next dotted =>
    obtain ⟨merged', kept, -⟩ := (r.ends_resolveWhere s c merged).returns h
    obtain ⟨normal, again, joined⟩ := returns_resolveWhere_normal merged h
    obtain ⟨hops, terminal, split, -⟩ := returns_resolveWhere.1 h
    have stays := stays_resolveWhere (r := r) split normal (splitTerminal_hops split ▸ joined)
    have dotted' : c'.isDeep = true := by
      obtain ⟨value, rfl, -⟩ := normal
      exact dotted
    rw [validateWhere, if_pos dotted']
    exact ⟨merged', kept, normal, again, stays⟩
  · next flat =>
    obtain ⟨valid, rfl, rfl⟩ := returns_liftExcept.1 h
    obtain ⟨known, value, checked, rfl⟩ := Schema.validateCondition_eq_ok.1 valid
    have uncut : c.path? = none := WhereCondition.path?_of_flat (Bool.eq_false_iff.2 flat)
    have again : s.validateCondition { c with value } = .ok { c with value } :=
      Schema.validateCondition_eq_ok.2 ⟨known, value, Schema.checkOperand_again checked, rfl⟩
    have flat' : ¬ WhereCondition.isDeep { c with value } = true := flat
    rw [validateWhere, if_neg flat', again]
    refine ⟨merged, .refl nodes, ⟨value, rfl, ?_⟩, returns_pure.2 ⟨rfl, rfl, rfl⟩, stays_pure _⟩
    rw [uncut]
    exact ⟨known, checked⟩

/-- Conditions come back in normal form, and again so when they are checked again. -/
theorem returns_validateAll_normal {cs cs' : List WhereCondition} {nodes ns : List RelationNode}
    {w w' : σ} (merged : Merged nodes) (h : Returns (cs.mapM (r.validateWhere s)) nodes w cs' ns w') :
    Merged ns ∧ Kept nodes ns ∧ List.Forall₂ (WhereCondition.Normal s ns) cs cs' ∧
      Returns (cs'.mapM (r.validateWhere s)) nodes w cs' ns w' ∧
      Stays (cs'.mapM (r.validateWhere s)) ns cs' := by
  induction cs generalizing nodes w cs' with
  | nil =>
      obtain ⟨rfl, rfl, rfl⟩ := returns_pure.1 h
      exact ⟨merged, .refl nodes, .nil, h, stays_pure _⟩
  | cons c rest ih =>
      rw [List.mapM_cons] at h
      obtain ⟨c', ms, v, first, h⟩ := returns_bind.1 h
      obtain ⟨others, ms', v', later, h⟩ := returns_bind.1 h
      obtain ⟨rfl, rfl, rfl⟩ := returns_pure.1 h
      obtain ⟨merged', kept, normal, again, stays⟩ := returns_validateWhere_normal merged first
      obtain ⟨merged'', kept', normals, all_again, all_stay⟩ := ih merged' later
      rw [List.mapM_cons]
      refine ⟨merged'', kept.trans kept', .cons (normal.kept merged'' kept') normals, ?_, ?_⟩
      · refine returns_bind.2 ⟨c', ms, v, again, ?_⟩
        exact returns_bind.2 ⟨others, ms', v', all_again, returns_pure.2 ⟨rfl, rfl, rfl⟩⟩
      · exact (stays.kept kept').bind (all_stay.bind (stays_pure _))

/-- **Conditions that are checked come back in their order and in normal form.**  Checking what came
back changes nothing, neither from where the conditions were checked, nor on the nodes that this
left. -/
theorem validateAll_normal {calls : List ResolverCall} {outcomes : List (Outcome Unit)}
    {cs cs' : List WhereCondition} {nodes ns : List RelationNode} {w₀ w₁ w w' : σ}
    (built : (r.resolveEach s calls).run [] w₀ = ((outcomes, nodes), w₁))
    (run : Returns (cs.mapM (r.validateWhere s)) nodes w cs' ns w') :
    List.Forall₂ (WhereCondition.Normal s ns) cs cs' ∧
      Returns (cs'.mapM (r.validateWhere s)) nodes w cs' ns w' ∧
      ∀ v, ∃ ns', Returns (cs'.mapM (r.validateWhere s)) ns v cs' ns' v ∧
        ns'.map edge = ns.map edge := by
  obtain ⟨merged, -⟩ := r.resolveEach_step s calls merged_nil built
  obtain ⟨merged', -, normal, again, stays⟩ := returns_validateAll_normal merged run
  refine ⟨normal, again, ?_⟩
  intro v
  obtain ⟨ns', later, -, same⟩ := stays ns v merged' (.refl ns)
  exact ⟨ns', later, same⟩

/-! ### People of some departments -/

/-- People by their own number and by two conditions on their department. -/
def chosen : List WhereCondition :=
  [⟨"department.id", .isIn, .string "4, 7"⟩, ⟨"id", .gte, .string "20"⟩,
    ⟨"department.name", .notEquals, .string "Sales"⟩]

/-- The texts of numbers are read as numbers, whichever condition the department keeps. -/
theorem normal_chosen : ∃ nodes cs ns w,
    Returns (chosen.mapM (offices.validateWhere people)) nodes () cs ns w ∧
      cs.map (fun c => c.values.map Json.asSigned?) = [[some 4, some 7], [some 20], [none]] ∧
      List.Forall₂ (WhereCondition.Normal people ns) chosen cs ∧
      Returns (cs.mapM (offices.validateWhere people)) nodes () cs ns w := by
  rcases built : (offices.resolveEach people [.field "department.name"]).run [] () with
    ⟨⟨outcomes, nodes⟩, w⟩
  have accepted : ((chosen.mapM (offices.validateWhere people)).runFrom
      ((offices.resolveEach people [.field "department.name"]).run [] ()).1.2 ()).1.1.toOption.any
        (fun cs => cs.map (fun c => c.values.map Json.asSigned?) =
          [[some 4, some 7], [some 20], [none]]) = true := by
    decide +kernel
  rw [built] at accepted
  obtain ⟨cs, ns, v, run, values⟩ := exists_returns accepted
  obtain ⟨normal, again, -⟩ := validateAll_normal built run
  exact ⟨nodes, cs, ns, v, run, by simpa using values, normal, again⟩

end SchemaRegistry

end DataAccess
