import DataAccess.Cli.Run
import DataAccess.Engine.Offline
import DataAccess.Json.Pretty
/-
**The program.**  Arguments are read as a command, the command is run on the files of the working
directory, and its answer is printed as one JSON value.  A failed command also says why on the error
stream.

Main definitions:

* `Shell` — the effects of the program;
* `usageText` — the text of the help;
* `main` — the program.
-/

set_option autoImplicit false

namespace DataAccess

/-- The effects of the program: input and output beside the cache of schemas. -/
abbrev Shell := StateT MemoryCache IO

namespace Shell

/-- The cache of schemas, which lives as long as the command. -/
def cache : Cache Shell :=
  let inMemory : Cache (StateM MemoryCache) := MemoryCache.inState 0 id fun c _ => c
  { get := fun key => modifyGet (inMemory.get key).run
    set := fun key value ttl => modifyGet (inMemory.set key value ttl).run }

/-- Why the system could not read a file, in its words. -/
def failureText : IO.Error → String
  | .noFileOrDirectory .. => FileFailure.missing.message
  | e => toString e

/-- The files of the working directory. -/
def files : FileReader Shell where
  read path := ExceptT.mk do
    try
      match String.fromUTF8? (← IO.FS.readBinFile path) with
      | some text => return .ok text
      | none => return .error "stream did not contain valid UTF-8"
    catch e => return .error (failureText e)

/-- What commands work with.  No driver is linked, so the clock is never asked. -/
def runner : CommandRunner Shell := ⟨files, .offline (return ⟨0, 0⟩), cache⟩

end Shell

/-- The commands with their options. -/
def usageText : String :=
  Text.join "\n"
    ["Schema-driven data access over relational and document stores", "",
     "Usage: tabula <COMMAND>", "", "Commands:",
     "  compile       Parse query parameters and print the compiled count and row queries",
     "  ddl           Print the bootstrap DDL for a table",
     "  exec          Run one JSON operation against the configured backend",
     "  check-config  Load and validate a configuration file",
     "  help          Print this message or the help of the given subcommand(s)"]

/-- Reports why arguments are no command; the result is the exit code. -/
def UsageError.report (e : UsageError) : IO UInt32 := do
  match e with
  | .displayHelp => IO.println usageText; return 0
  | .displayVersion => IO.println "tabula 0.1.0"; return 0
  | .displayHelpOnMissing => IO.eprintln usageText; return 2
  | _ => IO.eprintln s!"error: {e.name}\n\n{usageText}"; return 2

/-- Prints the answer of a command; the result is the exit code. -/
def CliAnswer.report (a : CliAnswer) : IO UInt32 := do
  IO.println a.toJson.pretty
  match a with
  | .ok _ => return 0
  | .error e => IO.eprintln e.display; return 1

end DataAccess

/-- The program. -/
def main (arguments : List String) : IO UInt32 := do
  match DataAccess.Command.ofArguments arguments with
  | .error e => e.report
  | .ok command =>
    let (answer, _) ← (DataAccess.Shell.runner.run command).run []
    DataAccess.CliAnswer.report answer
