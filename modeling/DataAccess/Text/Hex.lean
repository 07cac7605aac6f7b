/-
**Hexadecimal digits.**  Escapes, object identifiers and unique identifiers are written in
hexadecimal; letters are read in either case and written in lower case.

Main definitions:

* `Text.hexValue?` — the value of a digit;
* `Text.lowerHex?` — a run of digits in lower case;
* `Text.hexPair` — the two digits of a byte;
* `Text.hexBytes?` — the bytes that pairs of digits denote.

Main results:

* `Text.hexValue?_digitChar` — a written digit reads back;
* `Text.lowerHex?_length`, `Text.lowerHex?_lowerHex?` — lower case keeps the length, and is final;
* `Text.hexBytes?_flatMap_hexPair` — written bytes read back.
-/

set_option autoImplicit false

namespace DataAccess.Text

/-- The value of a hexadecimal digit. -/
def hexValue? (c : Char) : Option Nat :=
  if '0' ≤ c && c ≤ '9' then some (c.toNat - '0'.toNat)
  else if 'a' ≤ c && c ≤ 'f' then some (c.toNat - 'a'.toNat + 10)
  else if 'A' ≤ c && c ≤ 'F' then some (c.toNat - 'A'.toNat + 10)
  else none

theorem hexValue?_digitChar {n : Nat} (h : n < 16) : hexValue? (Nat.digitChar n) = some n := by
  have all : ∀ n : Fin 16, hexValue? (Nat.digitChar n) = some n.val := by decide +kernel
  exact all ⟨n, h⟩

theorem hexValue?_lt {c : Char} {n : Nat} (h : hexValue? c = some n) : n < 16 := by
  have nine : '9'.toNat = 57 := rfl
  have zero : '0'.toNat = 48 := rfl
  have a : 'a'.toNat = 97 := rfl
  have f : 'f'.toNat = 102 := rfl
  have A : 'A'.toNat = 65 := rfl
  have F : 'F'.toNat = 70 := rfl
  have toNat : ∀ a b : Char, a ≤ b ↔ a.toNat ≤ b.toNat := fun _ _ => Iff.rfl
  unfold hexValue? at h
  simp only [Bool.and_eq_true, decide_eq_true_eq, toNat] at h
  split at h
  · simp only [Option.some.injEq] at h; omega
  · split at h
    · simp only [Option.some.injEq] at h; omega
    · split at h
      · simp only [Option.some.injEq] at h; omega
      · simp at h

/-- A run of hexadecimal digits in lower case; nothing when another character is among them. -/
def lowerHex? : List Char → Option (List Char)
  | [] => some []
  | c :: rest => do some (Nat.digitChar (← hexValue? c) :: (← lowerHex? rest))

theorem lowerHex?_length {s digits : List Char} (h : lowerHex? s = some digits) :
    digits.length = s.length := by
  induction s generalizing digits with
  | nil => simp_all [lowerHex?]
  | cons c rest ih =>
    simp only [lowerHex?, Option.bind_eq_bind, Option.bind_eq_some_iff, Option.some.injEq] at h
    obtain ⟨_, _, ds, hds, rfl⟩ := h
    simp [ih hds]

theorem lowerHex?_lowerHex? {s digits : List Char} (h : lowerHex? s = some digits) :
    lowerHex? digits = some digits := by
  induction s generalizing digits with
  | nil => simp_all [lowerHex?]
  | cons c rest ih =>
    simp only [lowerHex?, Option.bind_eq_bind, Option.bind_eq_some_iff, Option.some.injEq] at h
    obtain ⟨n, hn, ds, hds, rfl⟩ := h
    simp [lowerHex?, hexValue?_digitChar (hexValue?_lt hn), ih hds]

/-- The two digits of a byte, the high half first. -/
def hexPair (b : UInt8) : List Char :=
  [Nat.digitChar (b.toNat / 16), Nat.digitChar (b.toNat % 16)]

/-- The bytes that pairs of hexadecimal digits denote. -/
def hexBytes? : List Char → Option (List UInt8)
  | [] => some []
  | [_] => none
  | high :: low :: rest => do
    some (.ofNat ((← hexValue? high) * 16 + (← hexValue? low)) :: (← hexBytes? rest))

theorem hexBytes?_flatMap_hexPair (bytes : List UInt8) :
    hexBytes? (bytes.flatMap hexPair) = some bytes := by
  induction bytes with
  | nil => rfl
  | cons b rest ih =>
    have size : b.toNat < 256 := b.toNat_lt
    have whole : b.toNat / 16 * 16 + b.toNat % 16 = b.toNat := by omega
    simp only [List.flatMap_cons, hexPair, List.cons_append, List.nil_append, hexBytes?,
      hexValue?_digitChar (show b.toNat / 16 < 16 by omega),
      hexValue?_digitChar (show b.toNat % 16 < 16 by omega), ih, Option.bind_eq_bind,
      Option.bind_some, whole, UInt8.ofNat_toNat]

end DataAccess.Text
