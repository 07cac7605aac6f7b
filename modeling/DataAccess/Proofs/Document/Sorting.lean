import DataAccess.Document.Memory
import DataAccess.Proofs.Document.Conditions
import DataAccess.Proofs.Document.Keys
/-
**Sorted reads.**  Documents are sorted by several fields, one after the other.  Values of different kinds
have no order and count as equal, so the order of documents is transitive only if each of the fields
shows one kind of values, or no two values that are in order.  Documents that can be ranked by the fields
in this way are sorted, and those that tie stay as they were; others may be left out of order.

Main definitions:

* `Rankable` — documents that can be ranked by a field;
* `RanksBy` — documents among which an order is transitive;
* `ties`, `Ordered` — documents in order, those that tie as they were given.

Main results:

* `Json.compare?_swap`, `Json.compare?_trans` — the order of values, where they have one;
* `sortOrder_swap`, `transCmp_sortOrder` — the order of documents that can be ranked;
* `rankable_of_ranksBy` — **no other documents are ordered transitively**;
* `ordered_sorted`, `ranksBy_of_ordered` — **sorting is stable, and right exactly for these documents**;
* `MemoryStore.find_ordered_iff` — the same for sorted reads of a store.
-/

set_option autoImplicit false

namespace DataAccess

open Std (TransCmp OrientedCmp)

/-! ### The order of values -/

instance Number.transCmp_compare : TransCmp Number.compare :=
  inferInstanceAs (TransCmp (compareOn fun n : Number => n.toBinary64.key))

instance transCmp_text : TransCmp fun s t : String => compareOfLessAndEq s t :=
  inferInstanceAs (Std.TransOrd String)

namespace Json

/-- The other way round the order is reversed. -/
theorem compare?_swap (a b : Json) : b.compare? a = (a.compare? b).map Ordering.swap := by
  cases a with
  | number m =>
      cases b with
      | number n => exact congrArg some (@OrientedCmp.eq_swap _ Number.compare _ n m)
      | _ => rfl
  | string s =>
      cases b with
      | string t =>
          exact congrArg some
            (@OrientedCmp.eq_swap _ (fun s t : String => compareOfLessAndEq s t) _ t s)
      | _ => rfl
  | bool p =>
      cases b with
      | bool q => exact congrArg some (@OrientedCmp.eq_swap _ (fun p q : Bool => compare p q) _ q p)
      | _ => rfl
  | null | array _ | object _ => cases b <;> rfl

/-- Numbers, texts and booleans are ordered, and null beside itself. -/
theorem compare?_cases {a b : Json} {o : Ordering} (h : a.compare? b = some o) :
    (∃ m n, a = .number m ∧ b = .number n ∧ o = m.compare n) ∨
      (∃ s t, a = .string s ∧ b = .string t ∧ o = compareOfLessAndEq s t) ∨
      (∃ p q, a = .bool p ∧ b = .bool q ∧ o = compare p q) ∨
      (a = .null ∧ b = .null ∧ o = .eq) := by
  cases a <;> cases b <;> simp_all [compare?]

/-- Values in order one after another are in order. -/
theorem compare?_trans {a b c : Json} {o p : Ordering} (first : a.compare? b = some o)
    (second : b.compare? c = some p) (ho : o.isLE) (hp : p.isLE) :
    ∃ q, a.compare? c = some q ∧ q.isLE := by
  rcases compare?_cases first with ⟨m, n, rfl, rfl, rfl⟩ | ⟨s, t, rfl, rfl, rfl⟩ |
      ⟨x, y, rfl, rfl, rfl⟩ | ⟨rfl, rfl, rfl⟩
  · obtain ⟨_, k, same, rfl, rfl⟩ := (compare?_cases second).resolve_right (by simp)
    obtain rfl := Json.number.inj same
    exact ⟨_, rfl, @TransCmp.isLE_trans _ Number.compare _ m n k ho hp⟩
  · obtain ⟨_, u, same, rfl, rfl⟩ :=
      ((compare?_cases second).resolve_left (by simp)).resolve_right (by simp)
    obtain rfl := Json.string.inj same
    exact ⟨_, rfl, @TransCmp.isLE_trans _ (fun s t : String => compareOfLessAndEq s t) _ s t u ho hp⟩
  · obtain ⟨_, z, same, rfl, rfl⟩ :=
      (((compare?_cases second).resolve_left (by simp)).resolve_left (by simp)).resolve_right
        (by simp)
    obtain rfl := Json.bool.inj same
    exact ⟨_, rfl, @TransCmp.isLE_trans _ (fun p q : Bool => compare p q) _ x y z ho hp⟩
  · exact ⟨p, second, hp⟩

/-- The kinds of values that are ordered. -/
def Kind.IsOrdered (k : Kind) : Prop := k = .null ∨ k = .bool ∨ k = .number ∨ k = .string

/-- Two values can be compared exactly if they are of one kind that is ordered. -/
theorem exists_compare?_iff {a b : Json} :
    (∃ o, a.compare? b = some o) ↔ a.kind = b.kind ∧ a.kind.IsOrdered := by
  cases a <;> cases b <;> simp [compare?, kind, Kind.IsOrdered]

/-- Values of one kind that is ordered are ordered transitively. -/
theorem isLE_of_kinds {x y z : Json} {k : Kind} (ordered : k.IsOrdered) (hx : x.kind = k)
    (hy : y.kind = k) (hz : z.kind = k) (first : ((x.compare? y).getD .eq).isLE)
    (second : ((y.compare? z).getD .eq).isLE) : ((x.compare? z).getD .eq).isLE := by
  obtain ⟨o, ho⟩ := exists_compare?_iff.2 ⟨hx.trans hy.symm, hx ▸ ordered⟩
  obtain ⟨p, hp⟩ := exists_compare?_iff.2 ⟨hy.trans hz.symm, hy ▸ ordered⟩
  rw [ho] at first
  rw [hp] at second
  obtain ⟨q, hq, le⟩ := compare?_trans ho hp first second
  rw [hq]
  exact le

/-- A value is not after one that is not before it. -/
theorem isLE_of_ne_lt {x z : Json} (level : z.compare? x ≠ some .lt) :
    ((x.compare? z).getD .eq).isLE := by
  rw [compare?_swap] at level
  cases h : x.compare? z with
  | none => rfl
  | some o =>
      rw [h] at level
      cases o with
      | lt => rfl
      | eq => rfl
      | gt => exact absurd rfl level

end Json

/-! ### The order of documents -/

theorem fieldOrder_swap (x y : Option Json) : fieldOrder x y = (fieldOrder y x).swap := by
  cases x with
  | none => cases y <;> rfl
  | some a =>
      cases y with
      | none => rfl
      | some b =>
          rw [fieldOrder, fieldOrder, Json.compare?_swap]
          cases b.compare? a <;> rfl

/-- The other way round the order is reversed. -/
theorem sortOrder_swap (order : List SortField) (a b : Record) :
    sortOrder order a b = (sortOrder order b a).swap := by
  induction order with
  | nil => rfl
  | cons entry rest ih =>
      obtain ⟨field, direction⟩ := entry
      rw [sortOrder, sortOrder, Ordering.swap_then, ← ih, fieldOrder_swap]
      cases direction <;> rfl

/-- Whether documents can be ranked by a field: those that hold a value in it hold one of a single kind
that is ordered, or no two of them are in order. -/
def Rankable (docs : Record → Prop) (field : String) : Prop :=
  (∃ k : Json.Kind, k.IsOrdered ∧ ∀ d v, docs d → d.get? field = some v → v.kind = k) ∨
    ∀ d e v w, docs d → docs e → d.get? field = some v → e.get? field = some w →
      v.compare? w ≠ some .lt

/-- Whether an order of documents is transitive. -/
def RanksBy (docs : Record → Prop) (order : List SortField) : Prop :=
  ∀ a b c, docs a → docs b → docs c → sortOrder order a b ≠ .gt → sortOrder order b c ≠ .gt →
    sortOrder order a c ≠ .gt

variable {docs : Record → Prop} {order : List SortField}

/-- Documents that can be ranked by a field are ordered by it. -/
theorem Rankable.transCmp {field : String} (rankable : Rankable docs field) :
    TransCmp fun a b : { d // docs d } => fieldOrder (a.1.get? field) (b.1.get? field) where
  eq_swap := fieldOrder_swap _ _
  isLE_trans := by
    rintro ⟨a, inA⟩ ⟨b, inB⟩ ⟨c, inC⟩ ab bc
    dsimp only at ab bc ⊢
    rcases ha : a.get? field with _ | x <;> rcases hb : b.get? field with _ | y <;>
      rcases hc : c.get? field with _ | z <;> rw [ha, hb] at ab <;> rw [hb, hc] at bc <;>
      -- a missing value comes first, so only three present ones are left
      try first | rfl | cases ab | cases bc
    rcases rankable with ⟨k, ordered, kinds⟩ | level
    · exact Json.isLE_of_kinds ordered (kinds a x inA ha) (kinds b y inB hb) (kinds c z inC hc) ab bc
    · exact Json.isLE_of_ne_lt (level c a z x inC inA hc ha)

/-- An order that is reversed is one. -/
theorem transCmp_directed {field : String} (rankable : Rankable docs field)
    (direction : Direction) :
    TransCmp fun a b : { d // docs d } =>
      direction.apply (fieldOrder (a.1.get? field) (b.1.get? field)) := by
  have forth := rankable.transCmp
  cases direction with
  | ascending => exact forth
  | descending =>
      have back : TransCmp fun a b : { d // docs d } =>
          fieldOrder (b.1.get? field) (a.1.get? field) :=
        TransCmp.opposite
      have reversed : (fun a b : { d // docs d } =>
          fieldOrder (b.1.get? field) (a.1.get? field)) =
            fun a b => (fieldOrder (a.1.get? field) (b.1.get? field)).swap := by
        funext a b
        exact fieldOrder_swap _ _
      rw [reversed] at back
      exact back

/-- Documents that can be ranked by each field of an order are ordered by the fields in turn. -/
theorem transCmp_sortOrder (rankable : ∀ entry ∈ order, Rankable docs entry.1) :
    TransCmp fun a b : { d // docs d } => sortOrder order a.1 b.1 := by
  induction order with
  | nil => exact { eq_swap := rfl, isLE_trans := fun _ _ => rfl }
  | cons entry rest ih =>
      obtain ⟨field, direction⟩ := entry
      have first := transCmp_directed (rankable (field, direction) List.mem_cons_self) direction
      have others := ih fun entry member => rankable entry (List.mem_cons_of_mem _ member)
      exact inferInstanceAs (TransCmp (compareLex
        (fun a b : { d // docs d } =>
          direction.apply (fieldOrder (a.1.get? field) (b.1.get? field)))
        fun a b => sortOrder rest a.1 b.1))

theorem ranksBy_of_rankable (rankable : ∀ entry ∈ order, Rankable docs entry.1) :
    RanksBy docs order := by
  intro a b c inA inB inC ab bc
  have trans := transCmp_sortOrder rankable
  exact Ordering.isLE_iff_ne_gt.1 (trans.isLE_trans (a := ⟨a, inA⟩) (b := ⟨b, inB⟩) (c := ⟨c, inC⟩)
    (Ordering.isLE_iff_ne_gt.2 ab) (Ordering.isLE_iff_ne_gt.2 bc))

/-- **Only documents that can be ranked by a field are ordered by it.**  Of two values in order and a value
of another kind, the greater counts as equal to the other one, and that one as equal to the smaller. -/
theorem rankable_of_ranksBy {field : String} (ranks : RanksBy docs [(field, .ascending)]) :
    Rankable docs field := by
  by_cases level : ∀ d e v w, docs d → docs e → d.get? field = some v → e.get? field = some w →
      v.compare? w ≠ some .lt
  · exact .inr level
  · left
    push Not at level
    obtain ⟨d, e, v, w, inD, inE, hd, he, less⟩ := level
    obtain ⟨same, ordered⟩ := Json.exists_compare?_iff.1 ⟨_, less⟩
    refine ⟨v.kind, ordered, fun z u inZ hz => ?_⟩
    by_contra other
    have down : sortOrder [(field, .ascending)] e z = .eq := by
      have apart : w.compare? u = none := Json.compare?_of_kinds fun h => other (h ▸ same.symm)
      simp [sortOrder, fieldOrder, he, hz, apart, Direction.apply]
    have up : sortOrder [(field, .ascending)] z d = .eq := by
      have apart : u.compare? v = none := Json.compare?_of_kinds other
      simp [sortOrder, fieldOrder, hz, hd, apart, Direction.apply]
    have after : sortOrder [(field, .ascending)] e d = .gt := by
      have greater : w.compare? v = some .gt := by
        rw [Json.compare?_swap, less]
        rfl
      simp [sortOrder, fieldOrder, he, hd, greater, Direction.apply]
    exact ranks e z d inE inZ inD (by simp [down]) (by simp [up]) after

/-! ### Sorting -/

/-- Whether a document ties with another one. -/
def ties (order : List SortField) (d e : Record) : Bool := sortOrder order e d == .eq

/-- Documents in order: the given ones rearranged, none before an earlier one, and those that tie with one
of them as they were given. -/
structure Ordered (order : List SortField) (given found : List Record) : Prop where
  perm : found.Perm given
  ascending : found.Pairwise fun earlier later => sortOrder order later earlier ≠ .lt
  stable : ∀ d ∈ given, found.filter (ties order d) = given.filter (ties order d)

theorem not_before_iff {order : List SortField} {a b : Record} :
    sortOrder order a b ≠ .lt ↔ sortOrder order b a ≠ .gt := by
  rw [sortOrder_swap]
  cases sortOrder order b a <;> simp

theorem sortOrder_of_ties {order : List SortField} {d e : Record} (h : ties order d e = true) :
    sortOrder order e d = .eq ∧ sortOrder order d e = .eq := by
  have forth : sortOrder order e d = .eq := eq_of_beq h
  refine ⟨forth, ?_⟩
  rw [sortOrder_swap, forth]
  rfl

section Ranks

variable (ranks : RanksBy docs order) {doc : Record} {done : List Record} (inside : docs doc)
  (all : ∀ d ∈ done, docs d)

include ranks inside all

/-- A document is put behind those that it is not before, and in front of the others. -/
theorem ascending_insertLast
    (ascending : done.Pairwise fun later earlier => sortOrder order later earlier ≠ .lt) :
    (insertLast order doc done).Pairwise fun later earlier =>
      sortOrder order later earlier ≠ .lt := by
  induction done with
  | nil => exact List.pairwise_singleton _ _
  | cons d rest ih =>
      obtain ⟨first, others⟩ := List.pairwise_cons.1 ascending
      have inRest := fun e (member : e ∈ rest) => all e (List.mem_cons_of_mem _ member)
      rw [insertLast]
      split
      · next less =>
        refine List.pairwise_cons.2 ⟨fun e member => ?_, ih inRest others⟩
        rcases List.mem_cons.1 ((insertLast_perm order doc rest).subset member) with rfl | member
        · exact not_before_iff.2 (by rw [less]; exact Ordering.noConfusion)
        · exact first e member
      · next behind =>
        refine List.pairwise_cons.2 ⟨fun e member => ?_, ascending⟩
        rcases List.mem_cons.1 member with rfl | member
        · exact behind
        · -- what is not after the first one is not after the document
          exact not_before_iff.2 (ranks e d doc (inRest e member) (all d List.mem_cons_self) inside
            (not_before_iff.1 (first e member)) (not_before_iff.1 behind))

/-- Among the documents that tie with some document a new one comes last. -/
theorem filter_insertLast {x : Record} (inX : docs x) :
    (insertLast order doc done).filter (ties order x) = (doc :: done).filter (ties order x) := by
  induction done with
  | nil => rfl
  | cons d rest ih =>
      have inRest := fun e (member : e ∈ rest) => all e (List.mem_cons_of_mem _ member)
      rw [insertLast]
      split
      · next less =>
        -- one document is before the other, so they do not both tie with it
        have apart (hd : ties order x d = true) : ties order x doc = false := by
          rw [← Bool.not_eq_true]
          intro hdoc
          have same := ranks d x doc (all d List.mem_cons_self) inX inside
            (by simp [(sortOrder_of_ties hd).1]) (by simp [(sortOrder_of_ties hdoc).2])
          exact not_before_iff.2 same less
        rw [List.filter_cons, ih inRest]
        cases hd : ties order x d with
        | true => simp [hd, apart hd]
        | false => simp [List.filter_cons, hd]
      · rfl

end Ranks

/-- **Documents that rank are sorted, and sorting is stable.**  The induction is on the documents that are
left; those that were put in already are in order, the last one in front. -/
theorem ordered_sorted (ranks : RanksBy docs order) {given : List Record}
    (all : ∀ d ∈ given, docs d) : Ordered order given (sorted order given) := by
  have step : ∀ left done : List Record, (∀ d ∈ left, docs d) → (∀ d ∈ done, docs d) →
      (done.Pairwise fun later earlier => sortOrder order later earlier ≠ .lt) →
      ((left.foldl (fun done doc => insertLast order doc done) done).Pairwise fun later earlier =>
          sortOrder order later earlier ≠ .lt) ∧
        ∀ x, docs x → (left.foldl (fun done doc => insertLast order doc done) done).filter
          (ties order x) = (left.reverse ++ done).filter (ties order x) := by
    intro left
    induction left with
    | nil => exact fun done _ _ ascending => ⟨ascending, fun _ _ => rfl⟩
    | cons d rest ih =>
        intro done inLeft inDone ascending
        have inside := inLeft d List.mem_cons_self
        have inNext : ∀ e ∈ insertLast order d done, docs e := by
          intro e member
          rcases List.mem_cons.1 ((insertLast_perm order d done).subset member) with rfl | member
          · exact inside
          · exact inDone e member
        obtain ⟨sortedAll, kept⟩ := ih (insertLast order d done)
          (fun e member => inLeft e (List.mem_cons_of_mem _ member)) inNext
          (ascending_insertLast ranks inside inDone ascending)
        refine ⟨sortedAll, fun x inX => ?_⟩
        rw [List.foldl_cons, kept x inX, List.filter_append,
          filter_insertLast ranks inside inDone inX, ← List.filter_append]
        simp
  obtain ⟨ascending, kept⟩ := step given [] all (fun _ h => absurd h List.not_mem_nil) .nil
  refine ⟨sorted_perm order given, List.pairwise_reverse.2 ascending, fun d member => ?_⟩
  rw [sorted, List.filter_reverse, kept d (all d member), List.append_nil, List.filter_reverse,
    List.reverse_reverse]

/-- Three documents, none before an earlier one that it follows, are left as they are. -/
theorem sorted_three {a b c : Record} (ab : sortOrder order a b ≠ .gt)
    (bc : sortOrder order b c ≠ .gt) : sorted order [a, b, c] = [a, b, c] := by
  simp [sorted, insertLast, not_before_iff.2 ab, not_before_iff.2 bc]

/-- **Only documents that rank are sorted in every arrangement.** -/
theorem ranksBy_of_ordered
    (ordered : ∀ given, (∀ d ∈ given, docs d) → Ordered order given (sorted order given)) :
    RanksBy docs order := by
  intro a b c inA inB inC ab bc
  have three := (ordered [a, b, c] (by simp [inA, inB, inC])).ascending
  rw [sorted_three ab bc] at three
  obtain ⟨first, -⟩ := List.pairwise_cons.1 three
  exact not_before_iff.1 (first c (by simp))

/-- Whether listed documents can be ranked by a field can be read off their values. -/
theorem rankable_mem_iff {given : List Record} {field : String} :
    Rankable (· ∈ given) field ↔
      (∃ k ∈ [Json.Kind.null, .bool, .number, .string],
        ∀ v ∈ given.filterMap (·.get? field), v.kind = k) ∨
      ∀ v ∈ given.filterMap (·.get? field), ∀ w ∈ given.filterMap (·.get? field),
        v.compare? w ≠ some .lt := by
  simp only [Rankable, Json.Kind.IsOrdered, List.mem_filterMap, List.mem_cons, List.not_mem_nil,
    or_false]
  constructor
  · rintro (⟨k, ordered, kinds⟩ | level)
    · exact .inl ⟨k, ordered, fun v ⟨d, member, held⟩ => kinds d v member held⟩
    · exact .inr fun v ⟨d, inD, hd⟩ w ⟨e, inE, he⟩ => level d e v w inD inE hd he
  · rintro (⟨k, ordered, kinds⟩ | level)
    · exact .inl ⟨k, ordered, fun d v member held => kinds v ⟨d, member, held⟩⟩
    · exact .inr fun d e v w inD inE hd he => level v ⟨d, inD, hd⟩ w ⟨e, inE, he⟩

instance (given : List Record) (field : String) : Decidable (Rankable (· ∈ given) field) :=
  decidable_of_iff _ rankable_mem_iff.symm

/-! ### Reading in order -/

/-- A read in some order. -/
def StoreRead.inOrder (order : List SortField) : StoreRead :=
  { StoreRead.everything with sort := order }

namespace MemoryStore

/-- The documents of a collection that match a filter. -/
def matching (s : MemoryStore) (name : String) (filter : Filter) : List Record :=
  (s.documents name).filter (Filter.accepts · filter)

theorem find_inOrder (s : MemoryStore) (name : String) (filter : Filter) (order : List SortField) :
    s.find name filter (.inOrder order) = sorted order (s.matching name filter) :=
  List.map_id' _

/-- **A sorted read returns sorted documents if they can be ranked.**  A read in some order always returns
the matching documents rearranged.  For documents of some sort and the fields that they are sorted by,
three things are the same: the documents can be ranked by each of the fields, every order by these
fields is transitive, and every such read of every collection whose matching documents are of this
sort returns them in order, those that tie as they were stored. -/
theorem find_ordered_iff (docs : Record → Prop) (fields : String → Prop) :
    (∀ (s : MemoryStore) name filter order,
      (s.find name filter (.inOrder order)).Perm (s.matching name filter)) ∧
    ((∀ field, fields field → Rankable docs field) ↔
      ∀ order : List SortField, (∀ entry ∈ order, fields entry.1) → RanksBy docs order) ∧
    ((∀ field, fields field → Rankable docs field) ↔
      ∀ (s : MemoryStore) name filter (order : List SortField), (∀ entry ∈ order, fields entry.1) →
        (∀ d ∈ s.matching name filter, docs d) →
          Ordered order (s.matching name filter) (s.find name filter (.inOrder order))) := by
  have ranked : (∀ field, fields field → Rankable docs field) ↔
      ∀ order : List SortField, (∀ entry ∈ order, fields entry.1) → RanksBy docs order := by
    constructor
    · exact fun rankable order among =>
        ranksBy_of_rankable fun entry member => rankable entry.1 (among entry member)
    · exact fun ranks field among => rankable_of_ranksBy (ranks [(field, .ascending)] (by simpa))
  refine ⟨fun s name filter order => ?_, ranked, ?_⟩
  · rw [find_inOrder]
    exact sorted_perm order _
  · rw [ranked]
    constructor
    · intro ranks s name filter order among all
      rw [find_inOrder]
      exact ordered_sorted (ranks order among) all
    · intro reads order among
      refine ranksBy_of_ordered fun given all => ?_
      -- a collection that holds just these documents
      have stored := reads [("given", ⟨given, ⟨[], []⟩⟩)] "given" (.object []) order among
      have whole : matching [("given", ⟨given, ⟨[], []⟩⟩)] "given" (.object []) = given :=
        List.filter_eq_self.2 fun _ _ => rfl
      rw [find_inOrder, whole] at stored
      exact stored all

/-- Members with badges of several kinds, no two of one kind, and with ages; some lack one of them. -/
def badged : MemoryStore :=
  [("members", ⟨[[("_id", .string "a"), ("badge", .null), ("age", .int 30)],
    [("_id", .string "b"), ("badge", .string "x")],
    [("_id", .string "c"), ("badge", .int 7), ("age", .int 35)],
    [("_id", .string "d"), ("age", .int 40)]], ⟨[], []⟩⟩)]

/-- By badges and then from the oldest on: who has no badge comes first, and no badge is before another. -/
theorem find_ordered_badged :
    (badged.find "members" (.object []) (.inOrder [("badge", .ascending), ("age", .descending)])).map
        (·.get? documentKey) = ["d", "c", "a", "b"].map (some ∘ Json.string) ∧
      Ordered [("badge", .ascending), ("age", .descending)]
        (badged.matching "members" (.object []))
        (badged.find "members" (.object [])
          (.inOrder [("badge", .ascending), ("age", .descending)])) := by
  have rankable : ∀ field, field = "badge" ∨ field = "age" →
      Rankable (· ∈ badged.documents "members") field := by
    rintro field (rfl | rfl) <;> decide +kernel
  refine ⟨rfl, (find_ordered_iff _ _).2.2.1 rankable badged "members" (.object []) _ (by simp) ?_⟩
  exact fun d member => (List.mem_filter.1 member).1

/-- Three people of whom one has null for an age. -/
def ageless : MemoryStore :=
  [("people", ⟨[[("_id", .string "a"), ("age", .int 2)], [("_id", .string "b"), ("age", .null)],
    [("_id", .string "c"), ("age", .int 1)]], ⟨[], []⟩⟩)]

/-- The null separates the ages: the elder stays in front of the younger. -/
theorem find_unordered :
    ageless.find "people" (.object []) (.inOrder [("age", .ascending)]) =
        ageless.matching "people" (.object []) ∧
      ¬ Ordered [("age", .ascending)] (ageless.matching "people" (.object []))
        (ageless.find "people" (.object []) (.inOrder [("age", .ascending)])) ∧
      ¬ RanksBy (· ∈ ageless.documents "people") [("age", .ascending)] := by
  have found : ageless.find "people" (.object []) (.inOrder [("age", .ascending)]) =
      ageless.matching "people" (.object []) := rfl
  refine ⟨found, fun ordered => ?_, fun ranks => ?_⟩
  · rw [found] at ordered
    obtain ⟨first, -⟩ := List.pairwise_cons.1 ordered.ascending
    exact first [("_id", .string "c"), ("age", .int 1)] (.tail _ (.head _)) (by decide +kernel)
  · exact absurd (rankable_of_ranksBy ranks) (by decide +kernel)

end MemoryStore

end DataAccess
