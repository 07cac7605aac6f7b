import DataAccess.Text.Split
/-
**Addresses of document databases.**  An address names a server and may name a database on it, after
the slash that ends the server and before any options.

Main definitions:

* `addressedDatabase` — the database that an address names.

Main results:

* `addressedDatabase_server` — an address that ends with its server names no database.
-/

set_option autoImplicit false

namespace DataAccess

/-- The database that an address of the form `scheme://server/database?options` names. -/
def addressedDatabase (address : String) : Option String :=
  match Text.splitOn '/' address with
  | _ :: _ :: _ :: path :: _ =>
    let name := ((Text.cut '?' path).map Prod.fst).getD path
    if name = "" then none else some name
  | _ => none

theorem addressedDatabase_server {address scheme server : String}
    (h : Text.splitOn '/' address = [scheme, "", server]) : addressedDatabase address = none := by
  simp [addressedDatabase, h]

end DataAccess
