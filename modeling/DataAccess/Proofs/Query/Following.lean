import DataAccess.Proofs.Query.Compiling
import DataAccess.Proofs.Query.Written
/-
**Markers are accepted.**  A response shows markers for the current page and for those around it.  What
parsing accepts as a window is a limit within the bounds of the configuration and an offset of 64 bits,
however it was asked for: by default, by number or by another marker.  So the windows around it are
windows that parsing accepts as well, and their markers read back.

Main definitions:

* `Marker`, `Pagination.token?` — the markers of a response and their tokens;
* `Marker.Stands` — the offset that a marker stands for;
* `Window.Fits` — a window within the bounds.

Main results:

* `Marker.stands_window?` — every window around a page begins where its marker says;
* `SchemaRegistry.fits_parseQuery` — an accepted request is for a window within the bounds;
* `SchemaRegistry.follows_marker` — **every marker of a response is accepted and leads where it says**.
-/

set_option autoImplicit false

namespace DataAccess

/-! ### The markers of a response -/

/-- The markers of a response. -/
inductive Marker
  | current
  | prev
  | next
  | first
  | last
deriving DecidableEq, Repr

/-- The name that a marker is shown under. -/
def Marker.name : Marker → String
  | .current => "current"
  | .prev => "prev"
  | .next => "next"
  | .first => "first"
  | .last => "last"

namespace Pagination

/-- The window of a marker, if there is such a page. -/
def window? (p : Pagination) : Marker → Option Window
  | .current => some p.current
  | .prev => p.prev
  | .next => p.next
  | .first => some p.first
  | .last => p.last

/-- The token that a response shows for a marker, unless it shows null. -/
def token? (p : Pagination) (m : Marker) : Option String :=
  ((p.toJson.get? "page").bind (·.get? m.name)).bind Json.asString?

/-- A response shows every marker, or null in its place. -/
theorem get?_marker (p : Pagination) (m : Marker) :
    (p.toJson.get? "page").bind (·.get? m.name) =
      some (((p.window? m).map fun v => Json.string v.encode).getD .null) := by
  cases m <;> rfl

theorem token?_eq (p : Pagination) (m : Marker) : p.token? m = (p.window? m).map Window.encode := by
  rw [token?, get?_marker]
  cases p.window? m <;> rfl

end Pagination

/-- The offset that a marker stands for, seen from a page of a result with `total` rows.  The last page
is the one on which the rows end, of the pages that begin at the multiples of the limit. -/
def Marker.Stands (limit offset total : Nat) : Marker → Nat → Prop
  | .current, start => start = offset
  | .prev, start => start = offset - limit
  | .next, start => start = offset + limit
  | .first, start => start = 0
  | .last, start => limit ∣ start ∧ start < total ∧ total ≤ start + limit

/-- Every window around a page has the limit of the page and begins where its marker says, no later than
the page or the rows do. -/
theorem Marker.stands_window? {limit offset total : Nat} (positive : 0 < limit) {m : Marker}
    {v : Window} (shown : (Pagination.compute limit offset total).window? m = some v) :
    v.limit = limit ∧ m.Stands limit offset total v.offset ∧ (v.offset ≤ offset ∨ v.offset < total) := by
  have step : max limit 1 = limit := by omega
  cases m with
  | current =>
      obtain rfl := Option.some.inj shown
      exact ⟨rfl, rfl, .inl (le_refl _)⟩
  | prev =>
      simp only [Pagination.window?, Pagination.compute, step, Option.ite_none_right_eq_some,
        Option.some.injEq] at shown
      obtain ⟨-, rfl⟩ := shown
      exact ⟨rfl, rfl, .inl (Nat.sub_le _ _)⟩
  | next =>
      simp only [Pagination.window?, Pagination.compute, step, Option.ite_none_right_eq_some,
        Option.some.injEq] at shown
      obtain ⟨more, rfl⟩ := shown
      exact ⟨rfl, rfl, .inr more⟩
  | first =>
      obtain rfl := Option.some.inj shown
      exact ⟨rfl, rfl, .inl (Nat.zero_le _)⟩
  | last =>
      simp only [Pagination.window?, Pagination.compute, step, Option.ite_none_right_eq_some,
        Option.some.injEq] at shown
      obtain ⟨some_rows, rfl⟩ := shown
      -- the last row is on this page: it is as far behind the start as the remainder says
      have split := Nat.div_add_mod' (total - 1) limit
      have short := Nat.mod_lt (total - 1) positive
      have inside : (total - 1) / limit * limit < total := by omega
      have ends : total ≤ (total - 1) / limit * limit + limit := by omega
      exact ⟨rfl, ⟨Nat.dvd_mul_left _ _, inside, ends⟩, .inr inside⟩

/-! ### Windows that are read

Whatever number a parameter holds, it is read as one of 64 bits. -/

theorem parseUnsigned?_lt {s : List Char} {n : Nat} (read : parseUnsigned? s = some n) :
    n < 2 ^ 64 := by
  simp only [parseUnsigned?, Option.ite_none_left_eq_some, Option.ite_none_right_eq_some,
    Option.some.injEq] at read
  obtain ⟨-, small, rfl⟩ := read
  exact small

theorem parseCount_lt {name raw : String} {n : Nat} (read : parseCount name raw = .ok n) :
    n < 2 ^ 64 := by
  rw [parseCount] at read
  split at read
  · next found =>
    rw [← Except.ok.inj read]
    exact parseUnsigned?_lt found
  · exact absurd read (by simp)

/-- Pairs leave numbers of 64 bits. -/
theorem Window.readPair_lt {found found' : Option Nat × Option Nat} {pair : String}
    (small : ∀ n ∈ found.2, n < 2 ^ 64) (read : readPair found pair = some found') :
    ∀ n ∈ found'.2, n < 2 ^ 64 := by
  rw [readPair] at read
  split at read
  · obtain rfl := Option.some.inj read
    exact small
  · obtain rfl := Option.some.inj read
    exact fun n member => parseUnsigned?_lt member
  · exact absurd read (by simp)

theorem Window.foldlM_readPair_lt {pairs : List String} {found found' : Option Nat × Option Nat}
    (small : ∀ n ∈ found.2, n < 2 ^ 64) (read : pairs.foldlM readPair found = some found') :
    ∀ n ∈ found'.2, n < 2 ^ 64 := by
  induction pairs generalizing found with
  | nil =>
      obtain rfl := Option.some.inj read
      exact small
  | cons pair rest ih =>
      obtain ⟨next, first, others⟩ := Option.bind_eq_some_iff.1 read
      exact ih (readPair_lt small first) others

/-- The window of a token begins at a number of 64 bits. -/
theorem Window.decode_lt {token : String} {v : Window} (read : decode token = .ok v) :
    v.offset < 2 ^ 64 := by
  rw [decode] at read
  split at read
  · next found =>
    obtain rfl := Except.ok.inj read
    obtain ⟨bytes, -, found⟩ := Option.bind_eq_some_iff.1 found
    obtain ⟨text, -, found⟩ := Option.bind_eq_some_iff.1 found
    obtain ⟨numbers, pairs, found⟩ := Option.bind_eq_some_iff.1 found
    have small := foldlM_readPair_lt (by simp) pairs
    split at found
    · obtain rfl := Option.some.inj found
      exact small _ rfl
    · exact absurd found (by simp)
  · exact absurd read (by simp)

/-- A window that parsing accepts. -/
structure Window.Fits (v : Window) (l : QueryLimits) : Prop where
  positive : 0 < v.limit
  bounded : v.limit ≤ l.greatest
  word : v.offset < 2 ^ 64

/-- A request for a window and nothing else. -/
def Window.query (v : Window) : Query :=
  { fields := none, relations := [], conditions := [], sort := [], limit := v.limit, offset := v.offset }

/-- The window of a draft. -/
def QueryDraft.window (d : QueryDraft) : Window := ⟨d.limit, d.offset⟩

namespace SchemaRegistry

open Resolving

variable {σ : Type} {r : SchemaRegistry (StateM σ)} {l : QueryLimits} {s : Schema}

/-- Whatever parameter is read, the window of the draft stays within the bounds. -/
theorem fits_readParam {d d' : QueryDraft} {p : String × String} {nodes nodes' : List RelationNode}
    {w w' : σ} (fits : d.window.Fits l) (h : Returns (r.readParam l s d p) nodes w d' nodes' w') :
    d'.window.Fits l := by
  cases returns_readParam h with
  | fields | relations | sort | condition => exact ⟨fits.positive, fits.bounded, fits.word⟩
  | limit counted checked =>
      obtain ⟨-, positive, bounded⟩ := QueryLimits.check_le checked
      exact ⟨positive, bounded, fits.word⟩
  | offset counted => exact ⟨fits.positive, fits.bounded, parseCount_lt counted⟩
  | page decoded checked =>
      obtain ⟨-, positive, bounded⟩ := QueryLimits.check_le checked
      exact ⟨positive, bounded, Window.decode_lt decoded⟩

/-- An accepted request is for a window within the bounds. -/
theorem fits_parseQuery (standard : 0 < l.standard ∧ l.standard ≤ l.greatest)
    {params : List (String × String)} {q : Query} {w w' : σ}
    (h : Action.Returns (r.parseQuery l s params) w q w') :
    Window.Fits ⟨q.limit, q.offset⟩ l := by
  obtain ⟨d, ns, u, conditions, relations, read, -, rfl⟩ := returns_parseQuery h
  have start : (QueryDraft.start l).window.Fits l :=
    ⟨standard.1, standard.2, by simp [QueryDraft.window, QueryDraft.start]⟩
  have fits : d.window.Fits l := by
    refine Returns.foldlM (fun d _ => d.window.Fits l) ?_ start read
    intro d p ns v d' ns' v' fits run
    exact fits_readParam fits run
  exact ⟨fits.positive, fits.bounded, fits.word⟩

/-! ### Following a marker -/

variable {v : Window}

/-- The marker of a window within the bounds moves any draft to it. -/
theorem readParam_marker (small : l.greatest < 2 ^ 64) (fits : v.Fits l) (d : QueryDraft) :
    r.readParam l s d ("page", v.encode) = pure (d.at v) := by
  have limit : v.limit < 2 ^ 64 := lt_of_le_of_lt fits.bounded small
  have read : Window.decode v.encode = .ok v := by
    rw [Window.decode, Window.decode?_encode, if_pos ⟨limit, fits.word⟩]
  simp only [readParam, read]
  change (liftExcept (l.check v.limit) >>= fun limit =>
    (pure { d with limit, offset := v.offset } : Resolving (StateM σ) QueryDraft)) = _
  rw [QueryLimits.check_eq_ok fits.positive fits.bounded]
  rfl

/-- The marker moves a request to its window, wherever it stands behind what else sets the window. -/
theorem parseQuery_marker (small : l.greatest < 2 ^ 64) (fits : v.Fits l)
    {before after : List (String × String)} (last : WindowFree after) {q : Query} {w w' : σ}
    (h : Action.Returns (r.parseQuery l s (before ++ after)) w q w') :
    Action.Returns (r.parseQuery l s (before ++ ("page", v.encode) :: after)) w (q.at v) w' := by
  have moved : r.readQuery l s (before ++ ("page", v.encode) :: after) =
      (·.at v) <$> r.readQuery l s (before ++ after) := by
    rw [readQuery, readQuery, List.foldlM_append, List.foldlM_append, bind_assoc, bind_assoc, map_bind]
    refine bind_congr fun draft => ?_
    rw [List.foldlM_cons, readParam_marker small fits, pure_bind,
      r.foldlM_readParam_at l s v last, bind_map_left, map_bind]
    exact bind_congr fun next => r.checkDraft_at s v next
  rw [Action.Returns, runFrom_parseQuery] at h ⊢
  rw [moved, Resolving.runFrom_map]
  generalize (r.readQuery l s (before ++ after)).runFrom [] w = end_ at h ⊢
  obtain ⟨⟨found, nodes⟩, u⟩ := end_
  obtain ⟨rfl, rfl⟩ := Prod.mk.inj h
  rfl

/-- **Every marker of a response is accepted and leads where it says.**  Under a valid configuration,
whatever request was accepted and however many rows it has: a marker that the response shows is
accepted as a page, by itself or added to the request behind what sets the window, and asks for as many
rows as before, from the offset on that it stands for. -/
theorem follows_marker {config : Config} (valid : config.validate = .ok ())
    (word : config.maxLimit < 2 ^ 64) {params : List (String × String)} {q : Query} {w w' : σ}
    (accepted : Action.Returns (r.parseQuery config.limits s params) w q w') {total : Nat}
    (counted : total < 2 ^ 64) (m : Marker) {token : String}
    (shown : (Pagination.compute q.limit q.offset total).token? m = some token) :
    ∃ offset, m.Stands q.limit q.offset total offset ∧
      (∀ u, Action.Returns (r.parseQuery config.limits s [("page", token)]) u
        (Window.query ⟨q.limit, offset⟩) u) ∧
      ∀ before after, params = before ++ after → WindowFree after →
        Action.Returns (r.parseQuery config.limits s (before ++ ("page", token) :: after)) w
          (q.at ⟨q.limit, offset⟩) w' := by
  have fits := fits_parseQuery (config.limits_of_validate valid) accepted
  rw [Pagination.token?_eq] at shown
  obtain ⟨⟨limit, offset⟩, window, rfl⟩ := Option.map_eq_some_iff.1 shown
  obtain ⟨rfl, stands, inside⟩ := Marker.stands_window? fits.positive window
  have begins : offset < 2 ^ 64 := by
    rcases inside with before | within
    · exact lt_of_le_of_lt before fits.word
    · exact lt_trans within counted
  have target : Window.Fits ⟨q.limit, offset⟩ config.limits := ⟨fits.positive, fits.bounded, begins⟩
  refine ⟨offset, stands, fun u => ?_, ?_⟩
  · -- by itself it is added to the request without parameters
    have nothing : Action.Returns (r.parseQuery config.limits s ([] ++ [])) u
        (Window.query ⟨config.defaultLimit, 0⟩) u := rfl
    have free : WindowFree [] := by simp [WindowFree]
    have followed : Action.Returns (r.parseQuery config.limits s
        ([] ++ ("page", Window.encode ⟨q.limit, offset⟩) :: [])) u
        ((Window.query ⟨config.defaultLimit, 0⟩).at ⟨q.limit, offset⟩) u :=
      parseQuery_marker word target free nothing
    exact followed
  · rintro before after rfl last
    exact parseQuery_marker word target last accepted

/-- The last one of a hundred people, seven to a page, begin at the ninety-ninth. -/
theorem follows_marker_people : ∃ q w,
    Action.Returns (askPeople [("limit", "7"), ("sort", "id.desc")]) () q w ∧
    (Pagination.compute q.limit q.offset 100).token? .last = some (Window.encode ⟨7, 98⟩) ∧
    Action.Returns (askPeople [("page", Window.encode ⟨7, 98⟩)]) () (Window.query ⟨7, 98⟩) () ∧
    Action.Returns (askPeople [("limit", "7"), ("page", Window.encode ⟨7, 98⟩), ("sort", "id.desc")]) ()
      (q.at ⟨7, 98⟩) w := by
  have accepted : ((askPeople [("limit", "7"), ("sort", "id.desc")]).runFrom ()).1.toOption.any
      (fun q => q.limit = 7 && q.offset = 0) = true := by
    decide +kernel
  obtain ⟨q, w, run, window⟩ := Action.exists_returns accepted
  rw [Bool.and_eq_true, decide_eq_true_iff, decide_eq_true_iff] at window
  obtain ⟨limit, offset⟩ := window
  have shown : (Pagination.compute q.limit q.offset 100).token? .last =
      some (Window.encode ⟨7, 98⟩) := by
    rw [limit, offset, Pagination.token?_eq]
    rfl
  obtain ⟨start, ⟨⟨page, rfl⟩, inside, ends⟩, alone, beside⟩ :=
    follows_marker (Config.validate_ofBackend .postgres) (by decide) run (by decide) .last shown
  rw [limit] at inside ends alone beside
  obtain rfl : page = 14 := by omega
  refine ⟨q, w, run, shown, alone (), beside [("limit", "7")] [("sort", "id.desc")] rfl ?_⟩
  intro p member
  rw [List.mem_singleton.1 member]
  decide

end SchemaRegistry

end DataAccess
