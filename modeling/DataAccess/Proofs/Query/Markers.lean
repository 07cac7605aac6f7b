import DataAccess.Query.Pagination
import DataAccess.Proofs.Outcome
import DataAccess.Proofs.Text.Cutting
import DataAccess.Proofs.Text.Decimal
/-
**Markers read back.**  The marker of a window is the text `limit=…&offset=…` in base64.  Reading it
gives the window back if both numbers fit 64 bits, and nothing otherwise; so a marker never stands for
another window than the one it was made for.

Main results:

* `parseUnsigned?_toDigits` — a written number reads back if it fits;
* `Window.ofText?_text` — the text of a window reads back;
* `Window.decode?_encode` — **a marker reads back as its window**;
* `Window.eq_of_decode_encode` — and as no other.
-/

set_option autoImplicit false

namespace DataAccess

/-- A written number reads back if it fits 64 bits. -/
theorem parseUnsigned?_toDigits (n : Nat) :
    parseUnsigned? (Nat.toDigits 10 n) = if n < 2 ^ 64 then some n else none := by
  have digits : ∀ c ∈ Nat.toDigits 10 n, Text.isDigit c = true := fun _ =>
    Text.isDigit_of_mem_toDigits
  have value := Text.decimalValue_toDigits n
  cases written : Nat.toDigits 10 n with
  | nil => exact absurd written Nat.toDigits_ne_nil
  | cons c rest =>
      rw [written] at digits value
      have first : c ≠ '+' := by
        rintro rfl
        exact absurd (digits '+' List.mem_cons_self) (by decide)
      have all : (c :: rest).all Text.isDigit = true := List.all_eq_true.2 digits
      rw [parseUnsigned?, all, value]
      · rfl
      · exact fun _ h => first (List.cons.inj h).1

theorem Text.isBlank_of_isDigit {c : Char} (h : isDigit c = true) : isBlank c = false := by
  rw [isDigit, Bool.and_eq_true] at h
  have low : 48 ≤ c.toNat := of_decide_eq_true h.1
  have high : c.toNat ≤ 57 := of_decide_eq_true h.2
  simp only [isBlank, blankRanges, List.any_cons, List.any_nil, Bool.or_eq_false_iff,
    Bool.and_eq_false_iff, decide_eq_false_iff_not, and_true]
  omega

/-- A written number has no blanks around it. -/
theorem trim_toDigits (n : Nat) : Text.trim (Nat.toDigits 10 n) = Nat.toDigits 10 n :=
  Text.trim_eq_self
    (fun _ h => Text.isBlank_of_isDigit (Text.isDigit_of_mem_toDigits (List.mem_of_mem_head? h)))
    (fun _ h => Text.isBlank_of_isDigit (Text.isDigit_of_mem_toDigits (List.mem_of_getLast? h)))

/-- The bytes of an array, as a list and back. -/
theorem toList_toByteArray (bytes : ByteArray) : (⟨bytes.toList.toArray⟩ : ByteArray) = bytes := by
  have run : ∀ (i : Nat) (r : List UInt8),
      ByteArray.toList.loop bytes i r = r.reverse ++ bytes.data.toList.drop i := by
    intro i r
    fun_induction ByteArray.toList.loop bytes i r with
    | case1 i r inside ih =>
        have bound : i < bytes.data.toList.length := inside
        have next : bytes.get! i = bytes.data.toList[i] := by
          rw [ByteArray.get!]
          exact getElem!_pos bytes.data i inside
        rw [ih, List.reverse_cons, List.append_assoc, next, List.drop_eq_getElem_cons bound]
        rfl
    | case2 i r outside =>
        have nothing : bytes.data.toList.drop i = [] :=
          List.drop_eq_nil_of_le (Nat.le_of_not_lt outside)
        rw [nothing, List.append_nil]
  have whole : bytes.toList = bytes.data.toList := by
    rw [ByteArray.toList, run]
    rfl
  rw [whole]

namespace Base64Url

/-- No letter is blank. -/
theorem isBlank_letter (n : Nat) : Text.isBlank (letter n) = false := by
  have all : alphabet.all (fun c => !Text.isBlank c) = true := by decide +kernel
  rw [letter, List.getD_eq_getElem?_getD]
  cases found : alphabet[n]? with
  | none => decide
  | some c =>
      have letter := List.all_eq_true.1 all c (List.mem_of_getElem? found)
      simpa using letter

theorem isBlank_of_mem_encode {bytes : List UInt8} {c : Char} (h : c ∈ encode bytes) :
    Text.isBlank c = false := by
  fun_induction encode bytes with
  | case1 a b d rest ih =>
      simp only [List.mem_cons] at h
      rcases h with rfl | rfl | rfl | rfl | h
      · exact isBlank_letter _
      · exact isBlank_letter _
      · exact isBlank_letter _
      · exact isBlank_letter _
      · exact ih h
  | case2 a b =>
      simp only [List.mem_cons, List.not_mem_nil, or_false] at h
      rcases h with rfl | rfl | rfl
      · exact isBlank_letter _
      · exact isBlank_letter _
      · exact isBlank_letter _
  | case3 a =>
      simp only [List.mem_cons, List.not_mem_nil, or_false] at h
      rcases h with rfl | rfl
      · exact isBlank_letter _
      · exact isBlank_letter _
  | case4 => exact absurd h List.not_mem_nil

end Base64Url

namespace Window

/-- A written window, letter by letter. -/
theorem toList_text (w : Window) : w.text.toList =
    ("limit".toList ++ '=' :: Nat.toDigits 10 w.limit) ++
      '&' :: ("offset".toList ++ '=' :: Nat.toDigits 10 w.offset) := by
  simp [text, String.toList_append, toString]

/-- The text of a window reads back if its numbers fit. -/
theorem ofText?_text (w : Window) :
    ofText? w.text = if w.limit < 2 ^ 64 ∧ w.offset < 2 ^ 64 then some w else none := by
  have digits (n : Nat) {c : Char} (h : Text.isDigit c = false) : c ∉ Nat.toDigits 10 n :=
    fun member => absurd (Text.isDigit_of_mem_toDigits member) (by rw [h]; decide)
  have noAmpersand (name : String) (n : Nat) (h : '&' ∉ name.toList) :
      '&' ∉ name.toList ++ '=' :: Nat.toDigits 10 n := by
    intro member
    rcases List.mem_append.1 member with member | member
    · exact h member
    · rcases List.mem_cons.1 member with equal | member
      · exact absurd equal (by decide)
      · exact digits n (by decide) member
  have pairs : Text.splitOn '&' w.text =
      [String.ofList ("limit".toList ++ '=' :: Nat.toDigits 10 w.limit),
       String.ofList ("offset".toList ++ '=' :: Nat.toDigits 10 w.offset)] := by
    rw [Text.splitOn, toList_text, Text.split_join,
      Text.split_of_not_mem (noAmpersand "limit" w.limit (by decide)),
      Text.split_of_not_mem (noAmpersand "offset" w.offset (by decide))]
    rfl
  have limit (found : Option Nat × Option Nat) :
      readPair found (String.ofList ("limit".toList ++ '=' :: Nat.toDigits 10 w.limit)) =
        some (if w.limit < 2 ^ 64 then some w.limit else none, found.2) := by
    rw [readPair, Text.cut_append (by decide), String.ofList_toList]
    simp only [String.toList_ofList, parseUnsigned?_toDigits]
  have offset (found : Option Nat × Option Nat) :
      readPair found (String.ofList ("offset".toList ++ '=' :: Nat.toDigits 10 w.offset)) =
        some (found.1, if w.offset < 2 ^ 64 then some w.offset else none) := by
    rw [readPair, Text.cut_append (by decide), String.ofList_toList]
    simp only [String.toList_ofList, parseUnsigned?_toDigits]
  rw [ofText?, pairs]
  simp only [List.foldlM_cons, List.foldlM_nil, limit, offset, Option.bind_eq_bind,
    Option.bind_some, Option.pure_def]
  by_cases hl : w.limit < 2 ^ 64
  · by_cases ho : w.offset < 2 ^ 64
    · rw [if_pos hl, if_pos ho, if_pos ⟨hl, ho⟩]
    · rw [if_pos hl, if_neg ho, if_neg fun h => ho h.2]
  · have outside : ¬ (w.limit < 2 ^ 64 ∧ w.offset < 2 ^ 64) := fun h => hl h.1
    rw [if_neg hl, if_neg outside]

/-- **A marker reads back as its window, if its numbers fit.** -/
theorem decode?_encode (w : Window) :
    decode? w.encode = if w.limit < 2 ^ 64 ∧ w.offset < 2 ^ 64 then some w else none := by
  have letters : Text.trim (Base64Url.encode w.text.toUTF8.toList) =
      Base64Url.encode w.text.toUTF8.toList :=
    Text.trim_eq_self (fun c h => Base64Url.isBlank_of_mem_encode (List.mem_of_mem_head? h))
      (fun c h => Base64Url.isBlank_of_mem_encode (List.mem_of_getLast? h))
  have valid : String.fromUTF8? w.text.toUTF8 = some w.text := by
    have utf8 : w.text.toUTF8.IsValidUTF8 := w.text.isValidUTF8
    rw [String.fromUTF8?, dif_pos utf8]
    rfl
  rw [decode?, encode, String.toList_ofList, letters, Base64Url.decode_encode]
  simp only [Option.bind_eq_bind, Option.bind_some, toList_toByteArray, valid]
  exact ofText?_text w

/-- A marker stands for no other window. -/
theorem eq_of_decode_encode {w v : Window} (h : decode w.encode = .ok v) : v = w := by
  rw [decode, decode?_encode] at h
  split at h
  · next read =>
    obtain ⟨-, same⟩ := Option.ite_none_right_eq_some.1 read
    rw [← Except.ok.inj h, Option.some.inj same]
  · exact absurd h (by simp)

end Window

end DataAccess
