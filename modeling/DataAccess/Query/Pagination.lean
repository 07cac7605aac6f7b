import DataAccess.Error
import DataAccess.Json.Basic
import DataAccess.Schema.Coercion
import DataAccess.Text.Base64Url
import DataAccess.Text.Blank
import DataAccess.Text.Split
/-
**Pagination.**  The pages of a result are named by markers, opaque tokens that hold a limit and an
offset.  A caller passes a marker back to fetch its page.

Main definitions:

* `Window`, `Window.encode`, `Window.decode` — a window of the result and its marker;
* `Pagination`, `Pagination.compute` — the markers around a page.

Main results:

* `Pagination.compute_prev`, `Pagination.compute_next` — when there is a page before and after.
-/

set_option autoImplicit false

namespace DataAccess

/-- A window of a result: at most `limit` rows after the first `offset`. -/
structure Window where
  limit : Nat
  offset : Nat
deriving DecidableEq, Repr

namespace Window

/-- The text inside a token. -/
def text (w : Window) : String := s!"limit={w.limit}&offset={w.offset}"

/-- The token of a window. -/
def encode (w : Window) : String :=
  String.ofList (Base64Url.encode w.text.toUTF8.toList)

/-- Reads one `name=number` pair into the numbers found so far; a later pair replaces an earlier
one, and an unreadable number leaves none. -/
def readPair (found : Option Nat × Option Nat) (pair : String) :
    Option (Option Nat × Option Nat) :=
  match Text.cut '=' pair with
  | some ("limit", v) => some (parseUnsigned? v.toList, found.2)
  | some ("offset", v) => some (found.1, parseUnsigned? v.toList)
  | _ => none

/-- The window that the text inside a token describes. -/
def ofText? (text : String) : Option Window := do
  match ← (Text.splitOn '&' text).foldlM readPair (none, none) with
  | (some limit, some offset) => some ⟨limit, offset⟩
  | _ => none

/-- The window of a token. -/
def decode? (token : String) : Option Window := do
  let bytes ← Base64Url.decode (Text.trim token.toList)
  let text ← String.fromUTF8? ⟨bytes.toArray⟩
  ofText? text

/-- The window of a token, or the refusal of the token. -/
def decode (token : String) : Outcome Window :=
  match decode? token with
  | some w => .ok w
  | none => .error (.validation s!"Invalid page token {token}")

end Window

/-- The markers around a page; a missing page has none. -/
structure Pagination where
  /-- The number of rows on the page. -/
  rows : Nat
  current : Window
  prev : Option Window
  next : Option Window
  first : Window
  last : Option Window
deriving DecidableEq, Repr

namespace Pagination

/-- The markers around the page of a window of a result with `total` rows; a limit of zero moves by
one row. -/
def compute (limit offset total : Nat) : Pagination :=
  let step := max limit 1
  { rows := min (total - offset) limit
    current := ⟨limit, offset⟩
    prev := if 0 < offset then some ⟨limit, offset - step⟩ else none
    next := if offset + step < total then some ⟨limit, offset + step⟩ else none
    first := ⟨limit, 0⟩
    last := if 0 < total then some ⟨limit, (total - 1) / step * step⟩ else none }

theorem compute_prev {limit offset total : Nat} :
    (compute limit offset total).prev.isSome = true ↔ 0 < offset := by
  simp only [compute]
  split <;> simp_all

theorem compute_next {limit offset total : Nat} (h : 0 < limit) :
    (compute limit offset total).next.isSome = true ↔ offset + limit < total := by
  have step : max limit 1 = limit := by omega
  simp only [compute, step]
  split <;> simp_all

/-- The serialised form, with tokens for the markers. -/
def toJson (p : Pagination) : Json :=
  let token (window : Option Window) : Json :=
    (window.map fun w => .string w.encode).getD .null
  .object
    [("total", .nat p.rows),
     ("page", .object
      [("current", token (some p.current)), ("prev", token p.prev), ("next", token p.next),
       ("first", token (some p.first)), ("last", token p.last)])]

end Pagination

end DataAccess
