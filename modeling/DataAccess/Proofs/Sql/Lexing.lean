import DataAccess.Sql.Statement
import DataAccess.Proofs.Text.Decimal
/-
**Reading a statement back.**  Names are arbitrary texts: they may hold delimiters, and whatever
looks like a mark for a bound value.  A statement is still read in one way only.  A name runs from
its opening delimiter to the first closing delimiter that is not doubled, a mark is what begins like
one outside of names, and every other character stands for itself.

Main definitions:

* `Lexeme`, `lex` — the parts of a text under the quoting rule of a dialect, and reading them;
* `Lexeme.names`, `Lexeme.marks`, `Lexeme.owners` — the names, the marks, and for each mark the name
  that was read last before it;
* `Statement.Spaced` — fixed text is free of delimiters and marks, and stands apart from what is
  before it;
* `Statement.lexemes` — the parts that the tokens of a statement mean.

Main results:

* `Statement.lex_render` — **a statement reads back as its tokens**;
* `Statement.marks_lexemes` — the marks are numbered from one, as many as there are values;
* `Statement.Spaced.append`, `Statement.Spaced.separated` — spacing is kept by composition.
-/

set_option autoImplicit false

namespace DataAccess

/-! ### Lexemes -/

/-- A part of the text of a statement. -/
inductive Lexeme
  /-- A character that stands for itself. -/
  | text (c : Char)
  /-- A quoted name, decoded. -/
  | name (ident : String)
  /-- The mark of a bound value, as written. -/
  | mark (written : String)
deriving DecidableEq, Repr

namespace Dialect

/-- A mark at the start of a text, and what follows it. -/
def readMark? (d : Dialect) (s : List Char) : Option (List Char × List Char) :=
  match d, s with
  | .postgres, '$' :: rest =>
    (Text.digits 0 none rest).map fun (number, more) => ('$' :: number, more)
  | .mysql, '?' :: rest => some (['?'], rest)
  | .mssql, '@' :: 'p' :: rest =>
    (Text.digits 0 none rest).map fun (number, more) => ('@' :: 'p' :: number, more)
  | _, _ => none

/-- The first lexeme of a text that begins with `c`, and what follows it. -/
def readLexeme? (d : Dialect) (c : Char) (rest : List Char) : Option (Lexeme × List Char) :=
  if c = d.opening then
    (Text.readQuoted d.closing rest).map fun (ident, more) =>
      (.name (String.ofList ident), more)
  else
    match d.readMark? (c :: rest) with
    | some (written, more) => some (.mark (String.ofList written), more)
    | none => some (.text c, rest)

end Dialect

/-! ### Every lexeme is shorter than the text it begins -/

theorem Text.readQuoted_length {closing : Char} {s read rest : List Char}
    (h : Text.readQuoted closing s = some (read, rest)) : rest.length < s.length := by
  fun_induction Text.readQuoted closing s generalizing read with
  | case1 => simp at h
  | case2 more ih =>
      obtain ⟨⟨inner, after⟩, hi, he⟩ := Option.map_eq_some_iff.1 h
      simp only [Prod.mk.injEq] at he
      obtain ⟨-, rfl⟩ := he
      have shorter := ih hi
      simp only [List.length_cons]
      omega
  | case3 d more hd =>
      simp only [Option.some.injEq, Prod.mk.injEq] at h
      obtain ⟨-, rfl⟩ := h
      simp
  | case4 =>
      simp only [Option.some.injEq, Prod.mk.injEq] at h
      obtain ⟨-, rfl⟩ := h
      simp
  | case5 c more hc ih =>
      obtain ⟨⟨inner, after⟩, hi, he⟩ := Option.map_eq_some_iff.1 h
      simp only [Prod.mk.injEq] at he
      obtain ⟨-, rfl⟩ := he
      have shorter := ih hi
      simp only [List.length_cons]
      omega

theorem Text.digits_rest_length {least : Nat} {most : Option Nat} {s read rest : List Char}
    (h : Text.digits least most s = some (read, rest)) : rest.length ≤ s.length := by
  unfold Text.digits at h
  obtain ⟨-, he⟩ := Option.ite_none_left_eq_some.1 h
  simp only [Option.some.injEq, Prod.mk.injEq] at he
  obtain ⟨-, rfl⟩ := he
  simp

theorem Dialect.readMark?_length {d : Dialect} {s written rest : List Char}
    (h : d.readMark? s = some (written, rest)) : rest.length < s.length := by
  unfold readMark? at h
  split at h
  · obtain ⟨⟨number, more⟩, hn, he⟩ := Option.map_eq_some_iff.1 h
    simp only [Prod.mk.injEq] at he
    obtain ⟨-, rfl⟩ := he
    have short := Text.digits_rest_length hn
    simp only [List.length_cons]
    omega
  · simp only [Option.some.injEq, Prod.mk.injEq] at h
    obtain ⟨-, rfl⟩ := h
    simp
  · obtain ⟨⟨number, more⟩, hn, he⟩ := Option.map_eq_some_iff.1 h
    simp only [Prod.mk.injEq] at he
    obtain ⟨-, rfl⟩ := he
    have short := Text.digits_rest_length hn
    simp only [List.length_cons]
    omega
  · simp at h

theorem Dialect.readLexeme?_length {d : Dialect} {c : Char} {rest more : List Char} {l : Lexeme}
    (h : d.readLexeme? c rest = some (l, more)) : more.length < (c :: rest).length := by
  unfold readLexeme? at h
  split at h
  · obtain ⟨⟨ident, after⟩, hr, he⟩ := Option.map_eq_some_iff.1 h
    simp only [Prod.mk.injEq] at he
    obtain ⟨-, rfl⟩ := he
    have shorter := Text.readQuoted_length hr
    simp only [List.length_cons]
    omega
  · split at h
    · next hm =>
      simp only [Option.some.injEq, Prod.mk.injEq] at h
      obtain ⟨-, rfl⟩ := h
      exact readMark?_length hm
    · simp only [Option.some.injEq, Prod.mk.injEq] at h
      obtain ⟨-, rfl⟩ := h
      simp

/-- The lexemes of a text; none when a name is not closed. -/
def lex (d : Dialect) (s : List Char) : Option (List Lexeme) :=
  match s with
  | [] => some []
  | c :: rest =>
    match _found : d.readLexeme? c rest with
    | none => none
    | some (l, more) => (lex d more).map (l :: ·)
termination_by s.length
decreasing_by exact Dialect.readLexeme?_length _found

namespace Lexeme

/-- The names in order. -/
def names (ls : List Lexeme) : List String :=
  ls.filterMap fun
    | .name ident => some ident
    | _ => none

/-- The marks in order. -/
def marks (ls : List Lexeme) : List String :=
  ls.filterMap fun
    | .mark written => some written
    | _ => none

/-- For each mark the name that was read last before it, `last` being the name read so far. -/
def owners (last : Option String) : List Lexeme → List (Option String)
  | [] => []
  | .text _ :: rest => owners last rest
  | .name ident :: rest => owners (some ident) rest
  | .mark _ :: rest => last :: owners last rest

end Lexeme

/-! ### Reading one part -/

/-- The characters that stand for themselves in every dialect. -/
def isPlain (c : Char) : Bool := !(['"', '\x60', '[', ']', '$', '?', '@'].contains c)

theorem lex_cons {d : Dialect} {c : Char} {rest more : List Char} {l : Lexeme}
    (h : d.readLexeme? c rest = some (l, more)) :
    lex d (c :: rest) = (lex d more).map (l :: ·) := by
  rw [lex]
  split
  · next none? => rw [h] at none?; simp at none?
  · next l' more' some? =>
    rw [h] at some?
    simp only [Option.some.injEq, Prod.mk.injEq] at some?
    obtain ⟨rfl, rfl⟩ := some?
    rfl

theorem Dialect.readLexeme?_plain {d : Dialect} {c : Char} (h : isPlain c = true)
    (rest : List Char) : d.readLexeme? c rest = some (.text c, rest) := by
  simp only [isPlain, List.contains_eq_mem, List.mem_cons, List.not_mem_nil, or_false,
    Bool.not_eq_true', decide_eq_false_iff_not, not_or] at h
  obtain ⟨double, back, bracket, -, dollar, question, sign⟩ := h
  cases d <;>
    simp [readLexeme?, readMark?, opening, double, back, bracket, dollar, question, sign]

theorem lex_plain {d : Dialect} {s : List Char} (h : ∀ c ∈ s, isPlain c = true)
    (rest : List Char) : lex d (s ++ rest) = (lex d rest).map (s.map Lexeme.text ++ ·) := by
  induction s with
  | nil => simp
  | cons c s ih =>
      have first : isPlain c = true := h c (by simp)
      have others : ∀ c ∈ s, isPlain c = true := fun c hc => h c (List.mem_cons_of_mem _ hc)
      rw [List.cons_append, lex_cons (Dialect.readLexeme?_plain first _), ih others,
        Option.map_map]
      rfl

/-- A quoted name begins with the opening delimiter. -/
theorem Dialect.toList_quote (d : Dialect) (ident : String) :
    (d.quote ident).toList = d.opening :: (d.quote ident).toList.tail := by
  simp [quote, Text.enclose]

/-- A quoted name is read as the name when no closing delimiter follows it. -/
theorem lex_quote (d : Dialect) (ident : String) {rest : List Char}
    (after : rest.head? ≠ some d.closing) :
    lex d ((d.quote ident).toList ++ rest) = (lex d rest).map (.name ident :: ·) := by
  rw [d.toList_quote, List.cons_append]
  refine lex_cons ?_
  rw [Dialect.readLexeme?, if_pos rfl, Dialect.readQuoted_quote d ident rest after]
  simp

/-- A mark is read as written when no digit follows it. -/
theorem lex_placeholder (d : Dialect) (n : Nat) {rest : List Char}
    (after : ∀ c ∈ rest.head?, Text.isDigit c = false) :
    lex d ((d.placeholder n).toList ++ rest) = (lex d rest).map (.mark (d.placeholder n) :: ·) := by
  have number : Text.digits 0 none (Nat.toDigits 10 n ++ rest) =
      some (Nat.toDigits 10 n, rest) :=
    Text.digits_append (fun _ => Text.isDigit_of_mem_toDigits) after (by simp) (by simp)
  cases d with
  | postgres =>
      have written : (Dialect.postgres.placeholder n).toList = '$' :: Nat.toDigits 10 n := by
        simp [Dialect.placeholder, String.toList_append, toString]
      rw [written, List.cons_append]
      refine lex_cons ?_
      simp only [Dialect.readLexeme?, Dialect.opening, Dialect.readMark?, number]
      simp [← written]
  | mysql =>
      have written : (Dialect.mysql.placeholder n).toList = ['?'] := by
        simp [Dialect.placeholder]
      rw [written, List.cons_append]
      refine lex_cons ?_
      simp [Dialect.readLexeme?, Dialect.opening, Dialect.readMark?, Dialect.placeholder]
  | mssql =>
      have written : (Dialect.mssql.placeholder n).toList = '@' :: 'p' :: Nat.toDigits 10 n := by
        simp [Dialect.placeholder, String.toList_append, toString]
      rw [written, List.cons_append, List.cons_append]
      refine lex_cons ?_
      simp only [Dialect.readLexeme?, Dialect.opening, Dialect.readMark?, number]
      simp [← written]

/-! ### The parts that a statement means -/

/-- The parts that a token means; a slot is the mark with the number `n`. -/
def Token.lexemes (d : Dialect) (n : Nat) : Token → List Lexeme
  | .name ident => [.name ident]
  | .slot _ _ => [.mark (d.placeholder n)]
  | t => (t.render d n).toList.map .text

namespace Statement

/-- The parts that a statement means after `n` slots. -/
def lexemesFrom (d : Dialect) : Nat → Statement → List Lexeme
  | _, [] => []
  | n, t :: rest => t.lexemes d (n + 1) ++ lexemesFrom d (if t.isSlot then n + 1 else n) rest

/-- The parts that a statement means. -/
def lexemes (d : Dialect) (s : Statement) : List Lexeme := lexemesFrom d 0 s

/-- The names of a statement. -/
def names (s : Statement) : List String :=
  s.filterMap fun
    | .name ident => some ident
    | _ => none

/-- For each slot the name that stands last before it. -/
def owners (last : Option String) : Statement → List (Option String)
  | [] => []
  | .name ident :: rest => owners (some ident) rest
  | .slot _ _ :: rest => last :: owners last rest
  | _ :: rest => owners last rest

/-- Whether a fixed text stands apart from a name or a mark before it: it is not empty and does not
go on with a digit. -/
def isApart (s : String) : Bool := s.toList.head?.any fun c => !Text.isDigit c

/-- A statement that stands apart from what is before it: it is empty or begins with such a text. -/
def Apart : Statement → Prop
  | [] => True
  | .text s :: _ => isApart s = true
  | _ => False

/-- Fixed text is plain, and what follows a name or a slot stands apart from it. -/
def Spaced : Statement → Prop
  | [] => True
  | .text s :: rest => s.toList.all isPlain = true ∧ Spaced rest
  | .name _ :: rest => Apart rest ∧ Spaced rest
  | .slot _ _ :: rest => Apart rest ∧ Spaced rest
  | _ :: rest => Spaced rest

/-! ### Composition -/

@[simp] theorem apart_nil : Apart [] := trivial

@[simp] theorem apart_text (s : String) (rest : Statement) :
    Apart (.text s :: rest) ↔ isApart s = true := Iff.rfl

@[simp] theorem spaced_nil : Spaced [] := trivial

@[simp] theorem spaced_text (s : String) (rest : Statement) :
    Spaced (.text s :: rest) ↔ s.toList.all isPlain = true ∧ Spaced rest := Iff.rfl

@[simp] theorem spaced_name (ident : String) (rest : Statement) :
    Spaced (.name ident :: rest) ↔ Apart rest ∧ Spaced rest := Iff.rfl

@[simp] theorem spaced_slot (type : ColumnType) (value : Json) (rest : Statement) :
    Spaced (.slot type value :: rest) ↔ Apart rest ∧ Spaced rest := Iff.rfl

@[simp] theorem spaced_like (rest : Statement) : Spaced (.like :: rest) ↔ Spaced rest := Iff.rfl

@[simp] theorem spaced_window (limit offset : Nat) (ordered : Bool) (rest : Statement) :
    Spaced (.window limit offset ordered :: rest) ↔ Spaced rest := Iff.rfl

theorem Apart.append {s t : Statement} (hs : Apart s) (ht : Apart t) : Apart (s ++ t) := by
  cases s with
  | nil => exact ht
  | cons a rest => cases a <;> exact hs

theorem Spaced.append {s t : Statement} (hs : Spaced s) (ht : Spaced t) (apart : Apart t) :
    Spaced (s ++ t) := by
  induction s with
  | nil => exact ht
  | cons a rest ih =>
      cases a with
      | text s => exact ⟨hs.1, ih hs.2⟩
      | name ident => exact ⟨hs.1.append apart, ih hs.2⟩
      | slot type value => exact ⟨hs.1.append apart, ih hs.2⟩
      | like => exact ih hs
      | window limit offset ordered => exact ih hs

/-- Several statements with a text between neighbours: the first, the text, and the others. -/
theorem separated_cons (separator : String) (p q : Statement) (rest : List Statement) :
    separated separator (p :: q :: rest) =
      p ++ .text separator :: separated separator (q :: rest) := by
  simp [separated, List.intercalate, List.intersperse]

/-- A token of separated parts is the separator or a token of a part. -/
theorem mem_separated {separator : String} {parts : List Statement} {t : Token}
    (h : t ∈ separated separator parts) : t = .text separator ∨ ∃ p ∈ parts, t ∈ p := by
  induction parts with
  | nil => simp [separated] at h
  | cons p rest ih =>
      cases rest with
      | nil => exact .inr ⟨p, List.mem_cons_self, by simpa [separated] using h⟩
      | cons q rest =>
          rw [separated_cons] at h
          rcases List.mem_append.1 h with h | h
          · exact .inr ⟨p, List.mem_cons_self, h⟩
          · rcases List.mem_cons.1 h with rfl | h
            · exact .inl rfl
            · rcases ih h with rfl | ⟨k, hk, ht⟩
              · exact .inl rfl
              · exact .inr ⟨k, List.mem_cons_of_mem _ hk, ht⟩

/-- What is read off a statement part by part, and off no separator, is read off separated parts. -/
theorem flatMap_separated {α : Type} {read : Statement → List α} {separator : String}
    (append : ∀ s t, read (s ++ t) = read s ++ read t) (silent : read [.text separator] = [])
    (parts : List Statement) : read (separated separator parts) = parts.flatMap read := by
  have nothing : read [] = [] := by
    have twice := append [] []
    rw [List.append_nil] at twice
    exact List.self_eq_append_right.1 twice
  induction parts with
  | nil => exact nothing
  | cons p rest ih =>
      cases rest with
      | nil => simp [separated]
      | cons q rest =>
          have between : read (.text separator :: separated separator (q :: rest)) =
              read (separated separator (q :: rest)) := by
            rw [← List.singleton_append, append, silent, List.nil_append]
          rw [separated_cons, append, between, ih]
          exact List.flatMap_cons.symm

/-- Statements with a text between neighbours are spaced when each of them is. -/
theorem Spaced.separated {separator : String} {parts : List Statement}
    (plain : separator.toList.all isPlain = true) (apart : isApart separator = true)
    (h : ∀ p ∈ parts, Spaced p) : Spaced (separated separator parts) := by
  induction parts with
  | nil => simp [Statement.separated]
  | cons p rest ih =>
      have others := ih fun q hq => h q (List.mem_cons_of_mem _ hq)
      have first := h p List.mem_cons_self
      cases rest with
      | nil => simpa [Statement.separated] using first
      | cons q rest =>
          rw [separated_cons]
          exact first.append ⟨plain, others⟩ apart

/-! ### Reading a statement -/

/-- The first character of a text that stands apart is plain and no digit. -/
theorem Apart.head_render {s : Statement} (apart : Apart s) (spaced : Spaced s) (d : Dialect)
    (n : Nat) : ∀ c ∈ (renderFrom d n s).toList.head?, Text.isDigit c = false ∧ isPlain c = true := by
  intro c hc
  cases s with
  | nil => simp [renderFrom] at hc
  | cons a rest =>
      cases a with
      | text s =>
          have first : isApart s = true := apart
          have plain : s.toList.all isPlain = true := spaced.1
          rw [isApart] at first
          cases hs : s.toList with
          | nil => simp [hs] at first
          | cons b more =>
              have written : (renderFrom d n (.text s :: rest)).toList.head? = some b := by
                simp [renderFrom, Token.render, String.toList_append, hs]
              rw [written, Option.mem_some_iff] at hc
              subst hc
              rw [hs] at first plain
              simp only [List.all_cons, Bool.and_eq_true] at plain
              exact ⟨by simpa using first, plain.1⟩
      | name ident => exact absurd apart (by simp [Apart])
      | slot type value => exact absurd apart (by simp [Apart])
      | like => exact absurd apart (by simp [Apart])
      | window limit offset ordered => exact absurd apart (by simp [Apart])

theorem plain_like (d : Dialect) : ∀ c ∈ d.like.toList, isPlain c = true := by
  rw [← List.all_eq_true]
  cases d <;> decide

theorem plain_toDigits (n : Nat) : ∀ c ∈ Nat.toDigits 10 n, isPlain c = true := by
  intro c hc
  have digit := Text.isDigit_of_mem_toDigits hc
  cases plain : isPlain c with
  | true => rfl
  | false =>
      simp only [isPlain, List.contains_eq_mem, Bool.not_eq_false', decide_eq_true_eq] at plain
      simp only [List.mem_cons, List.not_mem_nil, or_false] at plain
      rcases plain with h | h | h | h | h | h | h <;> subst h <;> exact absurd digit (by decide)

theorem plain_window (d : Dialect) (limit offset : Nat) (ordered : Bool) :
    ∀ c ∈ (d.window limit offset ordered).toList, isPlain c = true := by
  rw [← List.all_eq_true]
  have numbers (n : Nat) : (Nat.toDigits 10 n).all isPlain = true :=
    List.all_eq_true.2 (plain_toDigits n)
  cases d <;> cases ordered <;>
    simp [Dialect.window, String.toList_append, toString, numbers, isPlain]

theorem lex_renderFrom {s : Statement} (spaced : Spaced s) (d : Dialect) (n : Nat) :
    lex d (renderFrom d n s).toList = some (lexemesFrom d n s) := by
  -- what follows a name begins plainly, so its closing delimiter is not doubled
  have closing : isPlain d.closing = false := by cases d <;> decide
  induction s generalizing n with
  | nil =>
      rw [renderFrom, lexemesFrom]
      simp [lex]
  | cons a rest ih =>
      rw [renderFrom, String.toList_append, lexemesFrom]
      cases a with
      | text s =>
          have plain : ∀ c ∈ s.toList, isPlain c = true := List.all_eq_true.1 spaced.1
          rw [Token.render, lex_plain plain, ih spaced.2]
          rfl
      | name ident =>
          have after : (renderFrom d n rest).toList.head? ≠ some d.closing := by
            intro h
            have both := spaced.1.head_render spaced.2 d n d.closing h
            rw [closing] at both
            exact absurd both.2 (by simp)
          have noSlot : (Token.name ident).isSlot = false := rfl
          rw [Token.render, noSlot, if_neg Bool.false_ne_true, lex_quote d ident after,
            ih spaced.2]
          rfl
      | slot type value =>
          have after : ∀ c ∈ (renderFrom d (n + 1) rest).toList.head?, Text.isDigit c = false :=
            fun c hc => (spaced.1.head_render spaced.2 d (n + 1) c hc).1
          rw [Token.render, Token.isSlot, if_pos rfl, lex_placeholder d (n + 1) after,
            ih spaced.2]
          rfl
      | like =>
          rw [Token.render, lex_plain (plain_like d), ih spaced]
          rfl
      | window limit offset ordered =>
          rw [Token.render, lex_plain (plain_window d limit offset ordered), ih spaced]
          rfl

/-- **A statement reads back as its tokens.** -/
theorem lex_render {s : Statement} (spaced : Spaced s) (d : Dialect) :
    lex d (s.render d).toList = some (s.lexemes d) := lex_renderFrom spaced d 0

/-! ### What was read -/

theorem names_lexemes (d : Dialect) (s : Statement) : Lexeme.names (s.lexemes d) = s.names := by
  rw [lexemes]
  generalize 0 = n
  induction s generalizing n with
  | nil => rfl
  | cons a rest ih =>
      rw [lexemesFrom, Lexeme.names, List.filterMap_append]
      have others := ih (if a.isSlot then n + 1 else n)
      rw [Lexeme.names] at others
      rw [others]
      cases a <;> simp [Token.lexemes, names, List.filterMap_map]

theorem marks_lexemesFrom (d : Dialect) (s : Statement) (n : Nat) :
    Lexeme.marks (lexemesFrom d n s) =
      (List.range (slots s)).map fun k => d.placeholder (n + k + 1) := by
  induction s generalizing n with
  | nil => rfl
  | cons a rest ih =>
      rw [lexemesFrom, Lexeme.marks, List.filterMap_append]
      have others := ih (if a.isSlot then n + 1 else n)
      rw [Lexeme.marks] at others
      rw [others]
      cases a with
      | slot type value =>
          have count : slots (.slot type value :: rest) = slots rest + 1 := rfl
          have shift : ∀ k, n + 1 + k + 1 = n + (k + 1) + 1 := by omega
          rw [count, List.range_succ_eq_map]
          simp [Token.lexemes, Token.isSlot, Function.comp_def, shift]
      | text s => simp [Token.lexemes, Token.isSlot, slots, List.filterMap_map]
      | name ident => simp [Token.lexemes, Token.isSlot, slots]
      | like => simp [Token.lexemes, Token.isSlot, slots, List.filterMap_map]
      | window limit offset ordered =>
          simp [Token.lexemes, Token.isSlot, slots, List.filterMap_map]

/-- The marks are numbered from one, as many as there are values. -/
theorem marks_lexemes (d : Dialect) (s : Statement) :
    Lexeme.marks (s.lexemes d) =
      (List.range (s.params d).length).map fun k => d.placeholder (k + 1) := by
  rw [lexemes, marks_lexemesFrom, length_params]
  simp

theorem owners_map_text (last : Option String) (s : List Char) (rest : List Lexeme) :
    Lexeme.owners last (s.map .text ++ rest) = Lexeme.owners last rest := by
  induction s with
  | nil => rfl
  | cons c s ih => exact ih

theorem owners_lexemes (d : Dialect) (s : Statement) (last : Option String) :
    Lexeme.owners last (s.lexemes d) = s.owners last := by
  rw [lexemes]
  generalize 0 = n
  induction s generalizing n last with
  | nil => rfl
  | cons a rest ih =>
      rw [lexemesFrom]
      cases a with
      | text s => exact (owners_map_text last s.toList _).trans (ih last _)
      | name ident => exact ih (some ident) _
      | slot type value => exact congrArg (last :: ·) (ih last _)
      | like => exact (owners_map_text last d.like.toList _).trans (ih last _)
      | window limit offset ordered =>
          exact (owners_map_text last (d.window limit offset ordered).toList _).trans (ih last _)

end Statement

end DataAccess
