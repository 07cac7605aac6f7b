import DataAccess.Error
/-
**Errors of the command line.**  A command fails with a code and a message; errors of the library
keep their own code inside the message, except that a configuration error speaks for itself.

Main definitions:

* `CliErrorCode` — the codes;
* `CliError`, `CliError.display` — a code with a message;
* `CliError.ofDataError` — how an error of the library is reported.

Main results:

* `CliError.ofDataError_code` — only configuration errors are reported as such.
-/

set_option autoImplicit false

namespace DataAccess

/-- Why a command failed. -/
inductive CliErrorCode
  /-- The configuration file. -/
  | configError
  /-- The schema file. -/
  | schemaError
  /-- A malformed argument. -/
  | invalidArgument
  /-- The request was refused. -/
  | requestFailed
  /-- Input or output. -/
  | ioError
deriving DecidableEq, Repr

/-- The stable code. -/
def CliErrorCode.code : CliErrorCode → String
  | .configError => "TABULA_CLI_CONFIG_ERROR"
  | .schemaError => "TABULA_CLI_SCHEMA_ERROR"
  | .invalidArgument => "TABULA_CLI_INVALID_ARGUMENT"
  | .requestFailed => "TABULA_CLI_REQUEST_FAILED"
  | .ioError => "TABULA_CLI_IO_ERROR"

/-- A failed command. -/
structure CliError where
  code : CliErrorCode
  message : String
deriving DecidableEq, Repr

namespace CliError

/-- The line that is shown to the user. -/
def display (e : CliError) : String := e.code.code ++ ": " ++ e.message

/-- How an error of the library is reported. -/
def ofDataError : DataError → CliError
  | .config reason => ⟨.configError, reason⟩
  | e => ⟨.requestFailed, e.code ++ ": " ++ e.message⟩

theorem ofDataError_code {e : DataError} :
    (ofDataError e).code = .configError ↔ ∃ reason, e = .config reason := by
  cases e <;> simp [ofDataError]

end CliError

end DataAccess
