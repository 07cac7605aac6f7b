import DataAccess.Text.CaseFold
/-
**Text patterns.**  A document filter can ask whether a text holds a pattern.  A pattern is a list of
places, each admitting some characters once or any number of times, and of anchors at the ends of
the text.  Any text can be written as the pattern that looks for it literally.

Main definitions:

* `CharSet`, `PatternPiece` — the pieces of patterns;
* `Pattern`, `Pattern.ofText?` — patterns and their notation;
* `Pattern.occursIn` — whether a text holds a pattern, letter case aside if wanted;
* `Pattern.escape` — the notation of a literal text.

Main results:

* `Pattern.readSet_shorter` — reading a place consumes text;
* `Pattern.occursIn_nil` — the empty pattern is in every text.
-/

set_option autoImplicit false

namespace DataAccess

/-- The characters that a place of a pattern admits. -/
inductive CharSet
  /-- One character. -/
  | one (c : Char)
  /-- Every character but the line break. -/
  | any
  /-- The characters of a list. -/
  | listed (cs : List Char)
deriving DecidableEq, Repr

/-- Whether two characters are the same, letter case aside if wanted. -/
def CharSet.alike (ignoreCase : Bool) (a b : Char) : Bool :=
  if ignoreCase then Text.fold a == Text.fold b else a == b

/-- Whether a character is admitted. -/
def CharSet.admits (ignoreCase : Bool) (c : Char) : CharSet → Bool
  | .one a => alike ignoreCase a c
  | .any => c ≠ '\n'
  | .listed cs => cs.any fun a => alike ignoreCase a c

/-- A piece of a pattern. -/
inductive PatternPiece
  /-- The beginning of the text. -/
  | start
  /-- The end of the text. -/
  | stop
  /-- One character. -/
  | once (set : CharSet)
  /-- Any number of characters. -/
  | many (set : CharSet)
deriving DecidableEq, Repr

/-- A pattern: its pieces in order. -/
abbrev Pattern := List PatternPiece

namespace Pattern

/-! ### Matching -/

/-- Whether a text begins with a pattern; `atStart` tells whether nothing stands before it. -/
def beginsAt (ignoreCase : Bool) : Pattern → Bool → List Char → Bool
  | [], _, _ => true
  | .start :: rest, atStart, s => atStart && beginsAt ignoreCase rest atStart s
  | .stop :: rest, atStart, s => s.isEmpty && beginsAt ignoreCase rest atStart s
  | .once _ :: _, _, [] => false
  | .once set :: rest, _, c :: s =>
    set.admits ignoreCase c && beginsAt ignoreCase rest false s
  | .many _ :: rest, atStart, [] => beginsAt ignoreCase rest atStart []
  | .many set :: rest, atStart, c :: s =>
    -- the repetition ends here, or it takes one more character
    beginsAt ignoreCase rest atStart (c :: s) ||
      (set.admits ignoreCase c && beginsAt ignoreCase (.many set :: rest) false s)
termination_by p _ s => p.length + s.length

/-- Whether a pattern begins at some place of a text. -/
def beginsSomewhere (ignoreCase : Bool) (p : Pattern) : Bool → List Char → Bool
  | atStart, [] => beginsAt ignoreCase p atStart []
  | atStart, c :: s =>
    beginsAt ignoreCase p atStart (c :: s) || beginsSomewhere ignoreCase p false s

/-- Whether a text holds a pattern. -/
def occursIn (ignoreCase : Bool) (p : Pattern) (text : String) : Bool :=
  beginsSomewhere ignoreCase p true text.toList

@[simp] theorem beginsAt_nil (ignoreCase atStart : Bool) (s : List Char) :
    beginsAt ignoreCase [] atStart s = true := by
  simp [beginsAt]

@[simp] theorem occursIn_nil (ignoreCase : Bool) (text : String) :
    occursIn ignoreCase [] text = true := by
  unfold occursIn
  cases text.toList <;> simp [beginsSomewhere]

/-! ### Notation -/

/-- The characters with a meaning of their own. -/
def reserved : List Char := "\\.+*?()|[]\x7b\x7d^$#&-~".toList

/-- The character that an escape stands for; letters and digits other than those for blanks have no
meaning after a backslash. -/
def unescape? (c : Char) : Option Char :=
  match c with
  | 'n' => some '\n'
  | 'r' => some '\r'
  | 't' => some '\t'
  | c => if c.isAlphanum then none else some c

/-- The first place of a pattern's notation and what follows it. -/
def readSet : List Char → Option (CharSet × List Char)
  | [] => none
  | '\\' :: rest =>
    match rest with
    | [] => none
    | c :: rest => (unescape? c).map fun c => (.one c, rest)
  | '.' :: rest => some (.any, rest)
  | '[' :: rest =>
    match rest.dropWhile (· ≠ ']') with
    | [] => none
    | _ :: after =>
      let cs := rest.takeWhile (· ≠ ']')
      -- ranges, classes and complements are not part of the notation
      if cs.any reserved.contains || cs.isEmpty then none else some (.listed cs, after)
  | c :: rest => if "+*?()|\x7b".toList.contains c then none else some (.one c, rest)

theorem readSet_shorter {s rest : List Char} {set : CharSet} (h : readSet s = some (set, rest)) :
    rest.length < s.length := by
  unfold readSet at h
  split at h
  · simp at h
  · split at h
    · simp at h
    · next c rest' =>
      obtain ⟨_, _, same⟩ := Option.map_eq_some_iff.1 h
      simp only [Prod.mk.injEq] at same
      rw [← same.2, List.length_cons, List.length_cons]
      omega
  · simp only [Option.some.injEq, Prod.mk.injEq] at h
    simp [← h.2]
  · next r =>
    split at h
    · simp at h
    · next c after he =>
      have shorter : after.length < r.length := by
        have := congrArg List.length
          (List.takeWhile_append_dropWhile : r.takeWhile (· ≠ ']') ++ r.dropWhile (· ≠ ']') = r)
        rw [List.length_append, he, List.length_cons] at this
        omega
      simp only [] at h
      split at h
      · simp at h
      · simp only [Option.some.injEq, Prod.mk.injEq] at h
        rw [← h.2, List.length_cons]
        omega
  · split at h
    · simp at h
    · simp only [Option.some.injEq, Prod.mk.injEq] at h
      simp [← h.2]

/-- The pieces of a pattern's notation. -/
def readPieces (s : List Char) : Option Pattern :=
  match s with
  | [] => some []
  | '^' :: rest => (readPieces rest).map (.start :: ·)
  | '$' :: rest => (readPieces rest).map (.stop :: ·)
  | s =>
    match _h : readSet s with
    | none => none
    | some (set, '*' :: rest) => (readPieces rest).map (.many set :: ·)
    | some (set, rest) => (readPieces rest).map (.once set :: ·)
termination_by s.length
decreasing_by
  · simp
  · simp
  · have := readSet_shorter _h
    simp only [List.length_cons] at this
    omega
  · exact readSet_shorter _h

/-- The pattern that a text denotes, if it denotes one. -/
def ofText? (text : String) : Option Pattern := readPieces text.toList

/-- The notation of a literal text: a backslash before every character with a meaning. -/
def escape (text : String) : String :=
  String.ofList (text.toList.flatMap fun c => if reserved.contains c then ['\\', c] else [c])

end Pattern

end DataAccess
