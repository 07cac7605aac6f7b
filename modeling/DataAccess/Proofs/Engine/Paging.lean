import DataAccess.Proofs.Engine.Serving
import DataAccess.Proofs.Query.Alike
import DataAccess.Proofs.Query.Pages
/-
**Walking the pages.**  A caller reads a long result page by page: the first request sets a limit, and
each further one passes back the marker of the next page.  Over documents that stay as they are the
pages put together are the result, each record once and in its order.

Main definitions:

* `Page.nextToken?` — the marker of the next page;
* `Setting.walk` — the requests one after another;
* `Setting.Selects` — the documents that a request without a window is about;
* `Setting.Steady` — seconds through which no table changes its schema.

Main results:

* `Setting.Listing.answers_request` — a request for a window answers this part of the result;
* `Setting.Listing.returns_walk` — what is left from a marker on is what the walk returns;
* `Setting.walk_pages` — **walking the markers neither loses nor repeats a record**.
-/

set_option autoImplicit false

namespace DataAccess

/-- The marker of the next page, if there is one. -/
def Page.nextToken? (p : Page) : Option String := p.pagination.next.map Window.encode

/-- The serialised markers show it, or null. -/
theorem Pagination.toJson_next (p : Pagination) : ∃ rows links,
    p.toJson = .object [("total", rows), ("page", .object links)] ∧
      Keyed.get? links "next" = some ((p.next.map fun v => Json.string v.encode).getD .null) :=
  ⟨_, _, rfl, rfl⟩

namespace Setting

open DataAccess.Action DocumentDatasource

/-! ### The requests of a walk -/

/-- Walks the pages of a request, one request at each second.  The first one is made with a given
parameter, the others with the marker of the page before them.  The walk ends at a page without a next
one; if the seconds run out before, there is no result. -/
def walk (g : Setting) (table : String) (before after : Params) :
    List Nat → String × String → Action World (Option (List Page))
  | [], _ => return none
  | second :: later, p => do
    match ← (g.atSecond second).engine.perform (.findMany table (before ++ p :: after)) with
    | .page page =>
      match page.nextToken? with
      | none => return some [page]
      | some token => return (← g.walk table before after later ("page", token)).map (page :: ·)
    | _ => return none

/-- The documents that a request without a window is about: all that match, in its order. -/
structure Selects (g : Setting) (w : World) (table : String) (params : Params) (s : Schema)
    (q : Query) (rows : List Record) : Prop where
  schema : (runFrom (g.engine.schema table) w).1 = .ok s
  query : (runFrom (g.engine.query s params) w).1 = .ok q
  rows : ∃ filter, (runFrom (g.documents.compileFilter s q.conditions q.relations) w).1 = .ok filter ∧
    rows = sorted (sortFields q.sort) ((w.documents s.table).filter (Filter.accepts · filter))

/-! ### One result for all requests -/

/-- What the requests of a walk have in common. -/
structure Listing where
  schema : Schema
  query : Query
  filter : Filter
  /-- The record that is made of a document. -/
  shape : Record → Outcome Record

/-- The documents of a listing, in its order. -/
def Listing.rows (listing : Listing) (store : MemoryStore) : List Record :=
  sorted (sortFields listing.query.sort)
    ((store.documents listing.schema.table).filter (Filter.accepts · listing.filter))

/-- The page of a window. -/
def Listing.page (listing : Listing) (store : MemoryStore) (v : Window) : Outcome Page :=
  (⟨·, (listing.rows store).length, v.limit, v.offset⟩) <$>
    (((listing.rows store).drop v.offset).take v.limit).mapM listing.shape

/-- While the schemas are served, every request for some parameters is about this listing. -/
structure Lists (g : Setting) (range : Nat → Prop) (store : MemoryStore)
    (answer : String → Outcome Schema) (table : String) (params : Params) (listing : Listing) :
    Prop where
  served : answer table = .ok listing.schema
  query : ∀ second, range second → Answers (g.Serves range store answer)
    ((g.atSecond second).engine.query listing.schema params) (.ok listing.query)
  filter : Answers (g.Serves range store answer)
    (g.documents.compileFilter listing.schema listing.query.conditions listing.query.relations)
    (.ok listing.filter)
  shape : ∀ row, Answers (g.Serves range store answer)
    (g.documents.finishRow listing.schema listing.query.fields listing.query.relations row)
    (listing.shape row)

variable {g : Setting} {range : Nat → Prop} {store : MemoryStore}
  {answer : String → Outcome Schema} {table : String} {before after : Params}
  {listing : Listing}

theorem length_rows (listing : Listing) (store : MemoryStore) :
    (listing.rows store).length = store.count listing.schema.table listing.filter :=
  (sorted_perm _ _).length_eq

/-- Reading a window of a listing. -/
theorem Lists.answers_findMany {params : Params}
    (lists : g.Lists range store answer table params listing) (v : Window) :
    Answers (g.Serves range store answer)
      (g.documents.findMany listing.schema (listing.query.at v).page) (listing.page store v) := by
  have holds : ∀ w, g.Serves range store answer w → w.store = store := fun _ h => h.store
  refine lists.filter.bind ?_
  refine (answers_count holds listing.schema.table listing.filter).bind ?_
  split
  · next nothing =>
    -- nothing is shaped here, and nothing of an empty listing is on the page either
    have rows : listing.rows store = [] :=
      List.length_eq_zero_iff.1 ((length_rows listing store).trans nothing)
    have page : listing.page store v = .ok (Page.empty v.limit v.offset) := by
      rw [Listing.page, rows, List.drop_nil, List.take_nil]
      rfl
    rw [page]
    exact answers_pure _
  · refine (answers_find holds listing.schema.table listing.filter _).bind ?_
    have found : store.find listing.schema.table listing.filter
        { sort := sortFields listing.query.sort, skip := v.offset, limit := some v.limit,
          projection := none } = ((listing.rows store).drop v.offset).take v.limit :=
      List.map_id' _
    have shaped := (Answers.mapM lists.shape (((listing.rows store).drop v.offset).take v.limit)).map
      (Page.mk · (listing.rows store).length v.limit v.offset)
    rw [← bind_pure_comp, length_rows, ← found] at shaped
    rw [Listing.page, length_rows, ← found]
    exact shaped

/-- A request for a window of a listing answers this part of it. -/
theorem Lists.answers_request (lists : g.Lists range store answer table (before ++ after) listing)
    (first : WindowFree before) (last : WindowFree after) {second : Nat} (inside : range second)
    {p : String × String} {v : Window}
    (sets : SchemaRegistry.SetsWindow (g.atSecond second).engine.registry g.config.limits
      listing.schema p (.ok v)) :
    Answers (g.Serves range store answer)
      ((g.atSecond second).engine.perform (.findMany table (before ++ p :: after)))
      (Reply.page <$> listing.page store v) := by
  have served : Answers (g.Serves range store answer) ((g.atSecond second).engine.schema table)
      (.ok listing.schema) := lists.served ▸ answers_schema inside table
  have asked := SchemaRegistry.answers_parseQuery_window sets first last (lists.query second inside)
  exact served.bind (asked.bind ((lists.answers_findMany v).map Reply.page))

/-- The steps of a request that succeeds. -/
theorem returns_findMany {second : Nat} (inside : range second) {params : Params} {w w' : World}
    {reply : Reply} (serves : g.Serves range store answer w)
    (returns : Returns ((g.atSecond second).engine.perform (.findMany table params)) w reply w') :
    ∃ s q u u' page, answer table = .ok s ∧ g.Serves range store answer u ∧
      Returns ((g.atSecond second).engine.query s params) u q u' ∧
      Returns (g.documents.findMany s q.page) u' page w' ∧ reply = .page page := by
  obtain ⟨s, u, asked, returns⟩ := returns_bind.1 returns
  obtain ⟨served, serves⟩ := (answers_schema inside table).returns serves asked
  obtain ⟨q, u', parsed, returns⟩ := returns_bind.1 returns
  obtain ⟨page, made, read⟩ := returns_map.1 returns
  exact ⟨s, q, u, u', page, served, serves, parsed, read, made.symm⟩

/-- A request for a window that succeeds is about a listing. -/
theorem exists_lists {second : Nat} (inside : range second) {p : String × String} {v : Window}
    (names : Names g.config.limits p v) (first : WindowFree before) (last : WindowFree after)
    {w w' : World} {reply : Reply} (serves : g.Serves range store answer w)
    (returns : Returns
      ((g.atSecond second).engine.perform (.findMany table (before ++ p :: after))) w reply w') :
    ∃ listing, g.Lists range store answer table (before ++ after) listing := by
  obtain ⟨s, q, u, u', page, served, serves, parsed, read, -⟩ :=
    returns_findMany inside serves returns
  obtain ⟨window, -, sets⟩ := names
  obtain ⟨v, rfl⟩ := SchemaRegistry.returns_parseQuery_window (sets _ s) first last parsed
  have answers (i : { second // range second }) (table : String) :
      Answers (g.Serves range store answer)
        ((g.atSecond i.1).engine.registry.getSchema table none) (answer table) :=
    answers_schema i.2 table
  -- one answer for the engines of all seconds, since they serve the same schemas
  obtain ⟨result, alike⟩ :=
    SchemaRegistry.exists_answers_parseQuery answers g.config.limits s (before ++ after)
  obtain ⟨moved, serves⟩ := (SchemaRegistry.answers_parseQuery_window (sets _ s) first last
    (alike ⟨second, inside⟩)).returns serves parsed
  obtain ⟨query, rfl, rfl⟩ := Outcome.map_eq_ok.1 moved
  have holds : ∀ w, g.Serves range store answer w → w.store = store := fun _ h => h.store
  obtain ⟨filter, u, compiled, -⟩ := returns_bind.1 read
  obtain ⟨result, answersFilter⟩ := settled_compileFilter holds s query.conditions query.relations
  obtain ⟨rfl, -⟩ := answersFilter.returns serves compiled
  have shaped (row : Record) : Settled (g.Serves range store answer)
      (g.documents.finishRow s query.fields query.relations row) :=
    settled_finishRow holds s query.fields query.relations row
  exact ⟨⟨s, query, filter, fun row => (shaped row).choose⟩, served,
    fun second inside => alike ⟨second, inside⟩, answersFilter, fun row => (shaped row).choose_spec⟩

/-- A request of a listing that succeeds answers the page of the window that it names. -/
theorem Lists.returns_request (lists : g.Lists range store answer table (before ++ after) listing)
    (first : WindowFree before) (last : WindowFree after) {second : Nat} (inside : range second)
    {p : String × String} {v : Window} (names : Names g.config.limits p v) {w w' : World}
    {reply : Reply} (serves : g.Serves range store answer w)
    (returns : Returns
      ((g.atSecond second).engine.perform (.findMany table (before ++ p :: after))) w reply w') :
    ∃ page, reply = .page page ∧ listing.page store v = .ok page ∧ 0 < v.limit ∧
      g.Serves range store answer w' := by
  obtain ⟨s, q, u, u', -, served, -, parsed, -⟩ := returns_findMany inside serves returns
  obtain ⟨window, only, sets⟩ := names
  obtain ⟨v, rfl⟩ := SchemaRegistry.returns_parseQuery_window (sets _ s) first last parsed
  obtain ⟨rfl, positive⟩ := only v rfl
  obtain ⟨made, serves⟩ :=
    (lists.answers_request first last inside (sets _ _)).returns serves returns
  obtain ⟨page, answered, rfl⟩ := Outcome.map_eq_ok.1 made
  exact ⟨page, rfl, answered, positive, serves⟩

/-- What is left of a listing from an offset on. -/
def Listing.Left (listing : Listing) (store : MemoryStore) (v : Window) (pages : List Page) :
    Prop :=
  ((listing.rows store).drop v.offset).mapM listing.shape = .ok (pages.flatMap Page.data) ∧
    (∀ page ∈ pages, page.total = (listing.rows store).length) ∧
      pages.length = pageCount ((listing.rows store).length - v.offset) v.limit

/-- The last page is all that is left. -/
theorem Listing.left_last {v : Window} {page : Page} (positive : 0 < v.limit)
    (made : listing.page store v = .ok page) (last : page.nextToken? = none) :
    listing.Left store v [page] := by
  obtain ⟨data, shaped, rfl⟩ := Outcome.map_eq_ok.1 made
  have step : max v.limit 1 = v.limit := Nat.max_eq_left positive
  have short : (listing.rows store).length - v.offset ≤ v.limit := by
    simp only [Page.nextToken?, Page.pagination, Pagination.compute, step, Option.map_eq_none_iff,
      ite_eq_right_iff, reduceCtorEq, imp_false] at last
    omega
  rw [List.take_of_length_le (by rw [List.length_drop]; exact short)] at shaped
  refine ⟨?_, fun page member => ?_, (pageCount_of_le positive short).symm⟩
  · rw [shaped, List.flatMap_singleton]
  · rw [List.mem_singleton.1 member]

/-- A page and what is left from the next one on. -/
theorem Listing.left_cons {v : Window} {page : Page} {token : String} (positive : 0 < v.limit)
    (made : listing.page store v = .ok page) (next : page.nextToken? = some token) :
    ∃ u : Window, token = u.encode ∧
      (∀ pages, listing.Left store u pages → listing.Left store v (page :: pages)) ∧
      pageCount ((listing.rows store).length - v.offset) v.limit =
        pageCount ((listing.rows store).length - u.offset) u.limit + 1 := by
  obtain ⟨data, shaped, rfl⟩ := Outcome.map_eq_ok.1 made
  have step : max v.limit 1 = v.limit := Nat.max_eq_left positive
  obtain ⟨more, rfl⟩ : v.offset + v.limit < (listing.rows store).length ∧
      (⟨v.limit, v.offset + v.limit⟩ : Window).encode = token := by
    simpa [Page.nextToken?, Page.pagination, Pagination.compute, step] using next
  have count : pageCount ((listing.rows store).length - v.offset) v.limit =
      pageCount ((listing.rows store).length - (v.offset + v.limit)) v.limit + 1 := by
    rw [pageCount_of_lt positive (by omega), Nat.sub_sub]
  refine ⟨⟨v.limit, v.offset + v.limit⟩, rfl, fun pages left => ?_, count⟩
  obtain ⟨rest, totals, length⟩ := left
  refine ⟨?_, fun page member => ?_, ?_⟩
  · have parts : (listing.rows store).drop v.offset =
        ((listing.rows store).drop v.offset).take v.limit ++
          (listing.rows store).drop (v.offset + v.limit) := by
      rw [← List.drop_drop, List.take_append_drop]
    rw [parts, List.mapM_append, shaped, rest]
    rfl
  · rcases List.mem_cons.1 member with rfl | member
    · rfl
    · exact totals page member
  · rw [List.length_cons, length, count]

/-- **What is left from a marker on is what the walk returns.**  The induction is on the seconds of the
requests; the window moves on by a page with each of them. -/
theorem Lists.returns_walk (lists : g.Lists range store answer table (before ++ after) listing)
    (first : WindowFree before) (last : WindowFree after) {seconds : List Nat} {p : String × String}
    {v : Window} {w w' : World} {result : Option (List Page)}
    (inside : ∀ second ∈ seconds, range second) (names : Names g.config.limits p v)
    (serves : g.Serves range store answer w)
    (returns : Returns (g.walk table before after seconds p) w result w') :
    (∀ pages, result = some pages → listing.Left store v pages) ∧
      (result = none →
        seconds.length < pageCount ((listing.rows store).length - v.offset) v.limit) := by
  induction seconds generalizing p v w w' result with
  | nil =>
      obtain ⟨rfl, -⟩ := returns_pure.1 returns
      refine ⟨fun _ h => absurd h (by simp), fun _ => ?_⟩
      rw [pageCount, List.length_nil]
      omega
  | cons second later ih =>
      obtain ⟨reply, u, asked, returns⟩ := returns_bind.1 returns
      -- the request keeps the invariant, whatever it cached
      obtain ⟨page, rfl, made, positive, serves⟩ := lists.returns_request first last
        (inside second List.mem_cons_self) names serves asked
      simp only at returns
      cases next : page.nextToken? with
      | none =>
          rw [next] at returns
          obtain ⟨rfl, -⟩ := returns_pure.1 returns
          refine ⟨fun pages h => ?_, fun h => absurd h (by simp)⟩
          rw [← Option.some.inj h]
          exact Listing.left_last positive made next
      | some token =>
          rw [next] at returns
          obtain ⟨rest, u', walked, returns⟩ := returns_bind.1 returns
          obtain ⟨rfl, -⟩ := returns_pure.1 returns
          obtain ⟨u, rfl, join, count⟩ := Listing.left_cons positive made next
          -- the marker names the next window, from which the rest of the walk starts
          have others := ih (fun t member => inside t (List.mem_cons_of_mem _ member))
            (names_page _ u) serves walked
          cases rest with
          | none =>
              refine ⟨fun pages h => absurd h (by simp), fun _ => ?_⟩
              have fewer := others.2 rfl
              rw [count, List.length_cons]
              omega
          | some more =>
              refine ⟨fun pages h => ?_, fun h => absurd h (by simp)⟩
              rw [← Option.some.inj h]
              exact join more (others.1 more rfl)

/-- **Walking the markers neither loses nor repeats a record.**  A request without a window selects
rows.  Walked through with a limit, from the first page to the last, it returns as many pages as that
many rows fill, each reports all of them as the total, and the pages put together are these rows,
shaped, in their order.  A walk without a result was given too few seconds for its requests. -/
theorem walk_pages (g : Setting) (w : World) (table : String) (before after : Params) (limit : Nat)
    (first : WindowFree before) (last : WindowFree after) (later : List Nat)
    (steady : g.Steady w later) {walked : Option (List Page)} {w' : World}
    (returns : Returns
      (g.walk table before after (g.second :: later) ("limit", toString limit)) w walked w') :
    ∃ s q rows, g.Selects w table (before ++ after) s q rows ∧
      (∀ pages, walked = some pages → ∃ all,
        (runFrom (rows.mapM (g.documents.finishRow s q.fields q.relations)) w).1 = .ok all ∧
          pages.flatMap Page.data = all ∧ (∀ page ∈ pages, page.total = all.length) ∧
            pages.length = pageCount all.length limit) ∧
      (walked = none → (g.second :: later).length < pageCount rows.length limit) := by
  have serves := steady.serves
  have now : g.second ∈ g.second :: later := List.mem_cons_self
  have names := names_limit g.config.limits limit
  obtain ⟨reply, u, asked, -⟩ := returns_bind.1 returns
  obtain ⟨listing, lists⟩ := exists_lists now names first last serves asked
  obtain ⟨ended, short⟩ := lists.returns_walk first last (fun _ h => h) names serves returns
  refine ⟨listing.schema, listing.query, listing.rows w.store,
    ⟨?_, (lists.query g.second now).result serves, listing.filter, lists.filter.result serves, rfl⟩,
    fun pages h => ?_, short⟩
  · exact ((answers_schema now table).result serves).trans lists.served
  · obtain ⟨shaped, totals, count⟩ := ended pages h
    rw [List.drop_zero] at shaped
    have length := Outcome.length_of_mapM shaped
    refine ⟨pages.flatMap Page.data, ?_, rfl, ?_, ?_⟩
    · exact ((Answers.mapM lists.shape _).result serves).trans shaped
    · rw [length]
      exact totals
    · rw [length]
      exact count

/-- Three people are stored, and nothing is cached. -/
def threePeople : World :=
  { store := [("people", ⟨[[("_id", .string "a"), ("name", .string "Ada")],
      [("_id", .string "g"), ("name", .string "Grace")],
      [("_id", .string "k"), ("name", .string "Katherine")]], ⟨[], []⟩⟩)]
    cache := [], issued := 0 }

/-- Two pages at two seconds, the people in reverse order of their names. -/
theorem walk_pages_threePeople : ∃ pages w',
    Returns (tally.walk "people" [] [("sort", "name.desc")] [0, 7] ("limit", toString 2))
      threePeople (some pages) w' ∧
    ∃ s q rows, tally.Selects threePeople "people" [("sort", "name.desc")] s q rows ∧
      ∃ all, (runFrom (rows.mapM (tally.documents.finishRow s q.fields q.relations))
          threePeople).1 = .ok all ∧
        pages.flatMap Page.data = all ∧ (∀ page ∈ pages, page.total = all.length) ∧
          pages.length = pageCount all.length 2 := by
  have ended : ((runFrom (tally.walk "people" [] [("sort", "name.desc")] [0, 7]
      ("limit", toString 2)) threePeople).1.toOption.bind id).isSome = true := by
    decide +kernel
  have fresh : tally.Fresh threePeople := fresh_of_uncached rfl
  have free : WindowFree [("sort", "name.desc")] := by simp [WindowFree, windowNames]
  rcases returned : runFrom (tally.walk "people" [] [("sort", "name.desc")] [0, 7]
    ("limit", toString 2)) threePeople with ⟨walked, w'⟩
  rw [returned] at ended
  rcases walked with e | none | pages
  · exact absurd ended Bool.false_ne_true
  · exact absurd ended Bool.false_ne_true
  · obtain ⟨s, q, rows, selects, complete, -⟩ := walk_pages tally threePeople "people" []
      [("sort", "name.desc")] 2 (by simp [WindowFree]) free [7] (fresh.steady [7]) returned
    exact ⟨pages, w', returned, s, q, rows, selects, complete pages rfl⟩

end Setting

end DataAccess
