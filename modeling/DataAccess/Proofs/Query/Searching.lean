import Mathlib.Data.List.Infix
import DataAccess.Proofs.Document.Keys
import DataAccess.Sql.Statement
/-
**Searches.**  A search asks for the texts that hold a needle, letter case aside.  Document backends get
the needle as an escaped pattern and search for it literally.  Relational backends get it between two
wildcards, and a wildcard in the needle itself stays one: such a search finds every text that holds the
needle, and others.

Main definitions:

* `Text.Holds` — a needle occurs in a text, letter case aside;
* `Text.Like` — a text matches a pattern with wildcards;
* `Text.blinded` — a text that a needle matches as a pattern.

Main results:

* `Pattern.ofText?_escape` — an escaped needle is the pattern that looks for it;
* `Filter.accepts_search` — **a search of documents finds exactly the texts that hold the needle**;
* `Text.Holds.like` — a pattern between wildcards matches the texts that hold it;
* `Text.like_iff_holds` — **and no others exactly if it has no wildcard**;
* `Statement.searches_agree_iff` — both kinds of backend agree exactly on needles without wildcards;
* `Statement.search_percent` — a search for `50%` finds `5000`.
-/

set_option autoImplicit false

namespace DataAccess

/-! ### Texts that hold a needle -/

namespace Text

/-- A needle occurs in a text, letter case aside. -/
def Holds (needle text : String) : Prop :=
  needle.toList.map fold <:+: text.toList.map fold

instance (needle text : String) : Decidable (Holds needle text) :=
  inferInstanceAs (Decidable (_ <:+: _))

/-- A text matches a pattern, letter case aside: `%` stands for any run of characters, `_` for any one
character, and every other character for itself. -/
inductive Like : List Char → List Char → Prop
  | nil : Like [] []
  | run {p s : List Char} (before : List Char) (rest : Like p s) : Like ('%' :: p) (before ++ s)
  | one {p s : List Char} (c : Char) (rest : Like p s) : Like ('_' :: p) (c :: s)
  | same {p s : List Char} {a c : Char} (percent : a ≠ '%') (underscore : a ≠ '_')
      (alike : fold a = fold c) (rest : Like p s) : Like (a :: p) (c :: s)

/-- What follows the wildcard of a pattern matches the end of the text. -/
theorem like_run_iff {p s : List Char} :
    Like ('%' :: p) s ↔ ∃ before after, s = before ++ after ∧ Like p after := by
  constructor
  · intro h
    generalize shape : '%' :: p = q at h
    cases h with
    | nil => exact absurd shape (by simp)
    | run before rest =>
        obtain ⟨-, rfl⟩ := List.cons.inj shape
        exact ⟨before, _, rfl, rest⟩
    | one c rest => exact absurd (List.cons.inj shape).1 (by decide)
    | same percent _ _ _ => exact absurd (List.cons.inj shape).1.symm percent
  · rintro ⟨before, after, rfl, rest⟩
    exact .run before rest

/-- A pattern before a wildcard matches every text that begins with its characters. -/
theorem like_of_prefix {p s : List Char} (begins : p.map fold <+: s.map fold) :
    Like (p ++ ['%']) s := by
  induction p generalizing s with
  | nil => simpa using Like.run s .nil
  | cons a p ih =>
      cases s with
      | nil => exact absurd (List.prefix_nil.1 begins) (by simp)
      | cons c s =>
          obtain ⟨alike, begins⟩ := List.cons_prefix_cons.1 begins
          by_cases percent : a = '%'
          · rw [percent]
            exact .run [c] (ih begins)
          · by_cases underscore : a = '_'
            · rw [underscore]
              exact .one c (ih begins)
            · exact .same percent underscore alike (ih begins)

/-- A pattern without wildcards, before one, matches no others. -/
theorem prefix_of_like {p s : List Char} (percent : '%' ∉ p) (underscore : '_' ∉ p)
    (matching : Like (p ++ ['%']) s) : p.map fold <+: s.map fold := by
  induction p generalizing s with
  | nil => exact List.nil_prefix
  | cons a p ih =>
      rw [List.mem_cons, not_or] at percent underscore
      generalize shape : a :: p ++ ['%'] = q at matching
      cases matching with
      | nil => exact absurd shape (by simp)
      | run before rest => exact absurd (List.cons.inj shape).1.symm percent.1
      | one c rest => exact absurd (List.cons.inj shape).1.symm underscore.1
      | same _ _ alike rest =>
          obtain ⟨rfl, rfl⟩ := List.cons.inj shape
          exact List.cons_prefix_cons.2 ⟨alike, ih percent.2 underscore.2 rest⟩

theorem toList_between (needle : String) :
    ("%" ++ needle ++ "%").toList = '%' :: (needle.toList ++ ['%']) := by
  rw [String.toList_append, String.toList_append]
  rfl

/-- A pattern between wildcards matches every text that holds its characters. -/
theorem Holds.like {needle text : String} (holds : Holds needle text) :
    Like ("%" ++ needle ++ "%").toList text.toList := by
  rw [toList_between, like_run_iff]
  obtain ⟨before, after, whole⟩ := holds
  rw [List.append_assoc, eq_comm, List.map_eq_append_iff] at whole
  obtain ⟨first, rest, split, -, continues⟩ := whole
  exact ⟨first, rest, split, like_of_prefix ⟨after, continues.symm⟩⟩

/-- Without wildcards of its own it matches no others. -/
theorem holds_of_like {needle text : String} (percent : '%' ∉ needle.toList)
    (underscore : '_' ∉ needle.toList)
    (matching : Like ("%" ++ needle ++ "%").toList text.toList) : Holds needle text := by
  rw [toList_between, like_run_iff] at matching
  obtain ⟨before, after, split, rest⟩ := matching
  rw [Holds, split, List.map_append]
  exact (prefix_of_like percent underscore rest).isInfix.trans (List.suffix_append _ _).isInfix

/-! ### Wildcards in the needle -/

/-- A text that a needle matches as a pattern: nothing stands for `%`, and a letter for `_`. -/
def blinded (needle : List Char) : List Char :=
  (needle.filter (· ≠ '%')).map fun c => if c = '_' then 'x' else c

theorem like_blinded (needle : List Char) : Like (needle ++ ['%']) (blinded needle) := by
  induction needle with
  | nil => exact .run [] .nil
  | cons a needle ih =>
      by_cases percent : a = '%'
      · have dropped : blinded (a :: needle) = blinded needle := by
          simp [blinded, percent]
        rw [percent] at dropped ⊢
        rw [dropped]
        exact .run [] ih
      · by_cases underscore : a = '_'
        · rw [underscore]
          exact .one 'x' ih
        · have kept : blinded (a :: needle) = a :: blinded needle := by
            simp [blinded, percent, underscore]
          rw [kept]
          exact .same percent underscore rfl ih

/-- Such a text is shorter than the needle, or differs from it where a wildcard stands. -/
theorem not_holds_blinded {needle : String}
    (wild : ¬ ('%' ∉ needle.toList ∧ '_' ∉ needle.toList)) :
    ¬ Holds needle (String.ofList (blinded needle.toList)) := by
  rw [Holds, String.toList_ofList]
  intro holds
  have length := holds.length_le
  simp only [blinded, List.length_map] at length
  have all : ∀ c ∈ needle.toList, c ≠ '%' := by
    have whole := Nat.le_antisymm (List.length_filter_le _ _) length
    simpa using List.length_filter_eq_length_iff.1 whole
  have percent : '%' ∉ needle.toList := fun member => all '%' member rfl
  refine wild ⟨percent, ?_⟩
  intro underscore
  -- nothing was dropped, so that the two agree character by character
  have kept : blinded needle.toList = needle.toList.map fun c => if c = '_' then 'x' else c := by
    rw [blinded, List.filter_eq_self.2 (by simpa using all)]
  rw [kept, List.map_map] at holds
  have same := List.map_inj_left.1 (holds.eq_of_length (by simp)) '_' underscore
  exact absurd same (by decide +kernel)

/-- **A pattern between wildcards matches exactly the texts that hold its characters if and only if it
has no wildcard of its own.** -/
theorem like_iff_holds {needle : String} :
    (∀ text : String, Like ("%" ++ needle ++ "%").toList text.toList ↔ Holds needle text) ↔
      '%' ∉ needle.toList ∧ '_' ∉ needle.toList := by
  constructor
  · intro agree
    by_contra wild
    refine not_holds_blinded wild ((agree _).1 ?_)
    rw [toList_between, like_run_iff, String.toList_ofList]
    exact ⟨[], _, rfl, like_blinded needle.toList⟩
  · rintro ⟨percent, underscore⟩ text
    exact ⟨holds_of_like percent underscore, Holds.like⟩

end Text

/-! ### Escaped needles -/

namespace Pattern

/-- The pattern that looks for a text literally. -/
def literal (s : List Char) : Pattern := s.map fun c => .once (.one c)

/-- One place of a pattern's notation, and then the others. -/
theorem readPieces_once {s rest : List Char} {set : CharSet} (read : readSet s = some (set, rest))
    (start : s.head? ≠ some '^') (stop : s.head? ≠ some '$') (once : rest.head? ≠ some '*') :
    readPieces s = (readPieces rest).map (.once set :: ·) := by
  rw [readPieces.eq_def]
  split
  · exact absurd read (by simp [readSet])
  · exact absurd rfl start
  · exact absurd rfl stop
  · split
    · next absent => exact absurd (absent.symm.trans read) (by simp)
    · next many =>
        obtain ⟨-, rfl⟩ := Prod.mk.inj (Option.some.inj (read.symm.trans many))
        exact absurd rfl once
    · next here =>
        obtain ⟨rfl, rfl⟩ := Prod.mk.inj (Option.some.inj (read.symm.trans here))
        rfl

/-- The notation of a literal text, character by character. -/
def escaped (s : List Char) : List Char :=
  s.flatMap fun c => if reserved.contains c then ['\\', c] else [c]

theorem head?_escaped (s : List Char) : (escaped s).head? ≠ some '*' := by
  cases s with
  | nil => simp [escaped]
  | cons c s =>
      rw [escaped, List.flatMap_cons]
      split
      · simp
      · next plain =>
          rintro same
          obtain rfl : c = '*' := by simpa using same
          exact absurd plain (by decide)

/-- A reserved character stands for itself after a backslash. -/
theorem readSet_reserved {c : Char} (special : c ∈ reserved) (rest : List Char) :
    readSet ('\\' :: c :: rest) = some (.one c, rest) := by
  have all : (reserved.all fun c => unescape? c = some c) = true := by decide
  have stands : unescape? c = some c := by simpa using List.all_eq_true.1 all c special
  simp [readSet, stands]

/-- Any other character stands for itself. -/
theorem readSet_plain {c : Char} (plain : c ∉ reserved) (rest : List Char) :
    readSet (c :: rest) = some (.one c, rest) := by
  have other (a : Char) (meaning : a ∈ reserved) : c ≠ a := by
    rintro rfl
    exact plain meaning
  have none : ("+*?()|\x7b".toList.contains c) = false := by
    rw [Bool.eq_false_iff, ne_eq, List.contains_iff_mem]
    intro member
    have all : "+*?()|\x7b".toList ⊆ reserved := by decide
    exact plain (all member)
  rw [readSet.eq_def]
  split
  · next same => exact absurd same (by simp)
  · next same => exact absurd (List.cons.inj same).1 (other '\\' (by decide))
  · next same => exact absurd (List.cons.inj same).1 (other '.' (by decide))
  · next same => exact absurd (List.cons.inj same).1 (other '[' (by decide))
  · next same =>
      obtain ⟨rfl, rfl⟩ := List.cons.inj same
      rw [none]
      rfl

/-- What is escaped is read as a literal text. -/
theorem readPieces_escaped (s : List Char) : readPieces (escaped s) = some (literal s) := by
  induction s with
  | nil => simp [escaped, readPieces, literal]
  | cons c s ih =>
      have more : escaped (c :: s) =
          (if reserved.contains c then ['\\', c] else [c]) ++ escaped s := rfl
      rw [more]
      by_cases special : c ∈ reserved
      · rw [if_pos (List.contains_iff_mem.2 special), List.cons_append, List.cons_append,
          List.nil_append, readPieces_once (readSet_reserved special _) (by simp) (by simp)
            (head?_escaped s), ih]
        rfl
      · have start : (c :: escaped s).head? ≠ some '^' := by
          rintro same
          obtain rfl : c = '^' := by simpa using same
          exact special (by decide)
        have stop : (c :: escaped s).head? ≠ some '$' := by
          rintro same
          obtain rfl : c = '$' := by simpa using same
          exact special (by decide)
        rw [if_neg (by simpa using special), List.singleton_append,
          readPieces_once (readSet_plain special _) start stop (head?_escaped s), ih]
        rfl

/-- **An escaped needle is the pattern that looks for it.** -/
theorem ofText?_escape (needle : String) : ofText? (escape needle) = some (literal needle.toList) := by
  rw [ofText?, escape, String.toList_ofList]
  exact readPieces_escaped needle.toList

/-- A literal text begins a text that begins with its characters, letter case aside. -/
theorem beginsAt_literal {needle s : List Char} {atStart : Bool} :
    beginsAt true (literal needle) atStart s = true ↔
      needle.map Text.fold <+: s.map Text.fold := by
  induction needle generalizing s atStart with
  | nil => simp [literal]
  | cons a needle ih =>
      rw [literal, List.map_cons]
      cases s with
      | nil => simp [beginsAt]
      | cons c s =>
          rw [beginsAt, Bool.and_eq_true, List.map_cons, List.map_cons, List.cons_prefix_cons]
          refine and_congr ?_ ih
          simp [CharSet.admits, CharSet.alike]

theorem beginsSomewhere_literal {needle s : List Char} {atStart : Bool} :
    beginsSomewhere true (literal needle) atStart s = true ↔
      needle.map Text.fold <:+: s.map Text.fold := by
  induction s generalizing atStart with
  | nil =>
      rw [beginsSomewhere, beginsAt_literal, List.map_nil, List.infix_nil, List.prefix_nil]
  | cons c s ih =>
      rw [beginsSomewhere, Bool.or_eq_true, beginsAt_literal, ih, List.map_cons,
        List.infix_cons_iff]

end Pattern

/-! ### Both kinds of backend -/

/-- A text is searched for a needle with its letter case ignored. -/
theorem Filter.admits_search (type : ColumnType) (v : Json) (stored : Option Json) :
    admits stored (asked type .search v) = true ↔
      ∃ text, stored = some (.string text) ∧ Text.Holds v.bareText text := by
  have asks : admits stored (asked type .search v) =
      holdsPattern stored (.string (Pattern.escape v.bareText)) true := by
    have ignores : ignoresCase [("$regex", .string (Pattern.escape v.bareText)),
        ("$options", .string "i")] = true := rfl
    have lists : isOperators [("$regex", .string (Pattern.escape v.bareText)),
        ("$options", .string "i")] = true := by simp [isOperators]
    simp [admits, asked, lists, meets, ignores]
  rw [asks]
  cases stored with
  | none => simp [holdsPattern]
  | some x =>
      cases x with
      | string text =>
          have holds : holdsPattern (some (.string text)) (.string (Pattern.escape v.bareText)) true =
              true ↔ Text.Holds v.bareText text := by
            rw [holdsPattern, Pattern.ofText?_escape]
            exact Pattern.beginsSomewhere_literal
          simpa using holds
      | _ => simp [holdsPattern]

/-- **A search of documents finds exactly the texts that hold the needle.** -/
theorem Filter.accepts_search {field : String} (plain : field ≠ "$and" ∧ field ≠ "$or")
    (type : ColumnType) (v : Json) {doc : Record} {text : String}
    (stored : doc.get? field = some (.string text)) :
    accepts doc (ofCondition field type .search v) = true ↔ Text.Holds v.bareText text := by
  rw [ofCondition, accepts_clause plain, stored, admits_search]
  simp

namespace Statement

/-- A search binds the needle between two wildcards. -/
theorem params_search (d : Dialect) (table column : String) (type : ColumnType) (v : Json) :
    (condition (qualified table column) type ⟨column, .search, v⟩).params d =
      [.string ("%" ++ v.bareText ++ "%")] := by
  have untyped : coerceWrite .string (.string ("%" ++ v.bareText ++ "%")) d.booleans =
      .string ("%" ++ v.bareText ++ "%") :=
    coerceWrite_untyped (by decide) (by decide) (by decide) _ _
  simp [condition, qualified, params, List.filterMap_cons, Token.param, untyped]

/-- **Both kinds of backend search for the same texts exactly if the needle has no wildcard.**  The
filter of a search accepts the documents that hold the needle, letter case aside.  The pattern that a
statement binds matches their texts, and no others if and only if neither `%` nor `_` is in the needle. -/
theorem searches_agree_iff (d : Dialect) (table column : String) (type : ColumnType) (v : Json) :
    (condition (qualified table column) type ⟨column, .search, v⟩).params d =
        [.string ("%" ++ v.bareText ++ "%")] ∧
      (column ≠ "$and" ∧ column ≠ "$or" → ∀ (doc : Record) (text : String),
        doc.get? column = some (.string text) →
          (Filter.accepts doc (Filter.ofCondition column type .search v) = true ↔
            Text.Holds v.bareText text)) ∧
      (∀ text : String, Text.Holds v.bareText text →
        Text.Like ("%" ++ v.bareText ++ "%").toList text.toList) ∧
      ((∀ text : String, Text.Like ("%" ++ v.bareText ++ "%").toList text.toList ↔
          Text.Holds v.bareText text) ↔
        '%' ∉ v.bareText.toList ∧ '_' ∉ v.bareText.toList) := by
  refine ⟨params_search d table column type v, ?_, fun _ => Text.Holds.like, Text.like_iff_holds⟩
  intro plain doc text stored
  exact Filter.accepts_search plain type v stored

/-- A search for a part of a name finds the name in both. -/
theorem searches_agree_son :
    Text.Like "%SON%".toList "Johnson".toList ∧
      Filter.accepts [("name", .string "Johnson")]
        (Filter.ofCondition "name" .string .search (.string "SON")) = true ∧
      ¬ Text.Like "%SON%".toList "Smith".toList := by
  obtain ⟨-, accepts, found, agree⟩ :=
    searches_agree_iff .postgres "people" "name" .string (.string "SON")
  have needle : (Json.string "SON").bareText = "SON" := rfl
  rw [needle] at accepts found agree
  have holds : Text.Holds "SON" "Johnson" := by decide +kernel
  have apart : ¬ Text.Holds "SON" "Smith" := by decide +kernel
  exact ⟨found "Johnson" holds, (accepts (by decide) _ _ rfl).2 holds,
    fun like => apart ((agree.2 (by decide) "Smith").1 like)⟩

/-- A search for `50%` binds a pattern that matches `5000`, which does not hold `50%` and is not found
among documents. -/
theorem search_percent :
    (condition (qualified "goods" "name") .string ⟨"name", .search, .string "50%"⟩).params .postgres =
        [.string "%50%%"] ∧
      Text.Like "%50%%".toList "5000".toList ∧ ¬ Text.Holds "50%" "5000" ∧
      Filter.accepts [("name", .string "5000")]
        (Filter.ofCondition "name" .string .search (.string "50%")) = false := by
  have apart : ¬ Text.Holds "50%" "5000" := by decide +kernel
  refine ⟨params_search .postgres "goods" "name" .string (.string "50%"), ?_, apart, ?_⟩
  · exact .run [] (.same (by decide) (by decide) rfl
      (.same (by decide) (by decide) rfl (.run ['0', '0'] (.run [] .nil))))
  · rw [Bool.eq_false_iff, ne_eq, Filter.accepts_search (by decide) _ _ rfl]
    exact apart

end Statement

end DataAccess
