import DataAccess.Text.Split
/-
**Files of the command line.**  Commands read their configuration, schemas and operations from
files.  A file that cannot be read is reported in the words of the operating system.

Main definitions:

* `FileReader` — reading a file, with effects in a monad;
* `FileFailure` — why a file cannot be read;
* `FileTree`, `FileTree.read`, `FileTree.reader` — the files of a directory, written down beforehand.

Main results:

* `FileTree.read_file` — a file is found under its path.
-/

set_option autoImplicit false

namespace DataAccess

/-- Why a file cannot be read. -/
inductive FileFailure
  | missing
  | notDirectory
  | isDirectory
deriving DecidableEq, Repr

/-- The words of the operating system. -/
def FileFailure.message : FileFailure → String
  | .missing => "No such file or directory (os error 2)"
  | .notDirectory => "Not a directory (os error 20)"
  | .isDirectory => "Is a directory (os error 21)"

/-- Reading a file by its path, with effects in `m`; a failure is its wording. -/
structure FileReader (m : Type → Type) where
  read : String → ExceptT String m String

/-- The files of a directory with their texts, by the names that lead to them. -/
abbrev FileTree := List (List String × String)

namespace FileTree

/-- The names that a path leads through; a dot and an empty name lead nowhere. -/
def names (path : String) : List String :=
  (Text.splitOn '/' path).filter fun name => name ≠ "" && name ≠ "."

/-- Whether a path can only lead to a directory. -/
def endsInDirectory (path : String) : Bool :=
  match (Text.splitOn '/' path).getLast? with
  | some last => last = "" || last = "."
  | none => false

/-- The file that a path leads to. -/
def read (files : FileTree) (path : String) : Except FileFailure String :=
  let way := names path
  let below (whole part : List String) : Bool := part.isPrefixOf whole && part ≠ whole
  if path.toList.head? = some '/' then .error .missing
  else
    match files.find? fun file => file.1 = way with
    | some file => if endsInDirectory path then .error .notDirectory else .ok file.2
    | none =>
      if way.isEmpty || files.any fun file => below file.1 way then .error .isDirectory
      else if files.any fun file => below way file.1 then .error .notDirectory
      else .error .missing

theorem read_file {files : FileTree} {name text : String}
    (relative : name.toList.head? ≠ some '/') (plain : names name = [name])
    (isFile : endsInDirectory name = false)
    (found : files.find? (fun file => file.1 = [name]) = some ([name], text)) :
    read files name = .ok text := by
  simp [read, relative, plain, isFile, found]

/-- The files as a reader. -/
def reader {m : Type → Type} [Monad m] (files : FileTree) : FileReader m where
  read path := ExceptT.mk (return (read files path).mapError FileFailure.message)

end FileTree

end DataAccess
