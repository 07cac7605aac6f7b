/-
**URL-safe base64 without padding.**  Bytes are written three at a time as four letters of six bits;
a rest of one or two bytes takes two or three letters whose unused bits are zero.  Reading refuses
padding, other letters, a single left-over letter and unused bits that are not zero.

Main definitions:

* `Base64Url.letter`, `Base64Url.value?` — the alphabet and its inverse;
* `Base64Url.encode`, `Base64Url.decode` — bytes to letters and back.

Main results:

* `Base64Url.value?_letter` — a letter has the value it was chosen for;
* `Base64Url.decode_encode` — decoding gives back the encoded bytes.
-/

set_option autoImplicit false

namespace DataAccess.Base64Url

/-- The letters in the order of their values. -/
def alphabet : List Char :=
  "ABCDEFGHIJKLMNOPQRSTUVWXYZabcdefghijklmnopqrstuvwxyz0123456789-_".toList

/-- The letter of six bits. -/
def letter (n : Nat) : Char := alphabet.getD n 'A'

/-- The six bits of a letter. -/
def value? (c : Char) : Option Nat := alphabet.findIdx? (· == c)

theorem value?_letter {n : Nat} (h : n < 64) : value? (letter n) = some n := by
  have all : ∀ n : Fin 64, value? (letter n) = some n.val := by decide +kernel
  exact all ⟨n, h⟩

/-- Bytes as letters. -/
def encode : List UInt8 → List Char
  | a :: b :: c :: rest =>
    letter (a.toNat / 4) :: letter (a.toNat % 4 * 16 + b.toNat / 16) ::
      letter (b.toNat % 16 * 4 + c.toNat / 64) :: letter (c.toNat % 64) :: encode rest
  | [a, b] =>
    [letter (a.toNat / 4), letter (a.toNat % 4 * 16 + b.toNat / 16), letter (b.toNat % 16 * 4)]
  | [a] => [letter (a.toNat / 4), letter (a.toNat % 4 * 16)]
  | [] => []

/-- Letters as bytes. -/
def decode : List Char → Option (List UInt8)
  | p :: q :: r :: s :: rest => do
    let (p, q, r, s) := (← value? p, ← value? q, ← value? r, ← value? s)
    let bytes ← decode rest
    some (.ofNat (p * 4 + q / 16) :: .ofNat (q % 16 * 16 + r / 4) :: .ofNat (r % 4 * 64 + s) ::
      bytes)
  | [p, q, r] => do
    let (p, q, r) := (← value? p, ← value? q, ← value? r)
    if r % 4 = 0 then some [.ofNat (p * 4 + q / 16), .ofNat (q % 16 * 16 + r / 4)] else none
  | [p, q] => do
    let (p, q) := (← value? p, ← value? q)
    if q % 16 = 0 then some [.ofNat (p * 4 + q / 16)] else none
  | [_] => none
  | [] => some []

theorem ofNat_eq_of_toNat {n : Nat} {a : UInt8} (h : n = a.toNat) : UInt8.ofNat n = a := by
  subst h
  simp

theorem decode_encode (bytes : List UInt8) : decode (encode bytes) = some bytes := by
  fun_induction encode bytes with
  | case1 a b c rest ih =>
    have ha := a.toNat_lt
    have hb := b.toNat_lt
    have hc := c.toNat_lt
    simp only [decode]
    rw [value?_letter (by omega), value?_letter (by omega), value?_letter (by omega),
      value?_letter (by omega), ih]
    simp only [Option.bind_eq_bind, Option.bind_some, Option.some.injEq, List.cons.injEq, and_true]
    exact ⟨ofNat_eq_of_toNat (by omega), ofNat_eq_of_toNat (by omega),
      ofNat_eq_of_toNat (by omega)⟩
  | case2 a b =>
    have ha := a.toNat_lt
    have hb := b.toNat_lt
    simp only [decode]
    rw [value?_letter (by omega), value?_letter (by omega), value?_letter (by omega)]
    simp only [Option.bind_eq_bind, Option.bind_some, Nat.mul_mod_left, if_pos]
    congr 1
    simp only [List.cons.injEq, and_true]
    exact ⟨ofNat_eq_of_toNat (by omega), ofNat_eq_of_toNat (by omega)⟩
  | case3 a =>
    have ha := a.toNat_lt
    simp only [decode]
    rw [value?_letter (by omega), value?_letter (by omega)]
    simp only [Option.bind_eq_bind, Option.bind_some, Nat.mul_mod_left, if_pos]
    congr 1
    simp only [List.cons.injEq, and_true]
    exact ofNat_eq_of_toNat (by omega)
  | case4 => rfl

end DataAccess.Base64Url
