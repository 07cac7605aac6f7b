import DataAccess.Json.Keyed
import DataAccess.Text.Split
/-
**Arguments of the command line.**  The first argument names a command, the rest are its options,
each a name with a value.  A value may be attached with `=`; an option that waits for its value is
settled before anything else is looked at, so the first mistake from left to right is reported.

Main definitions:

* `Command` — the four commands with their options;
* `UsageError` — the mistakes, and the requests for help;
* `OptionSpec`, `Command.specs?` — the options of each command;
* `GivenOptions.read` — the options out of a list of arguments;
* `Command.ofArguments` — a command out of the arguments.

Main results:

* `Command.ofArguments_nil` — without arguments the help is shown.
-/

set_option autoImplicit false

namespace DataAccess

/-- A command with its options. -/
inductive Command
  /-- Compile a request of these parameters to its statements. -/
  | compile (config schemas table : String) (params : List String)
  /-- Print the statements that create a table. -/
  | ddl (config schemas table : String)
  /-- Perform one operation. -/
  | exec (config operation : String)
  /-- Check a configuration. -/
  | checkConfig (config : String)
deriving DecidableEq, Repr

/-- Why arguments are no command. -/
inductive UsageError
  | invalidValue
  | unknownArgument
  | invalidSubcommand
  | tooManyValues
  | argumentConflict
  | missingRequiredArgument
  | displayHelp
  /-- The help, because something is missing. -/
  | displayHelpOnMissing
  | displayVersion
deriving DecidableEq, Repr

/-- The name of a mistake. -/
def UsageError.name : UsageError → String
  | .invalidValue => "InvalidValue"
  | .unknownArgument => "UnknownArgument"
  | .invalidSubcommand => "InvalidSubcommand"
  | .tooManyValues => "TooManyValues"
  | .argumentConflict => "ArgumentConflict"
  | .missingRequiredArgument => "MissingRequiredArgument"
  | .displayHelp => "DisplayHelp"
  | .displayHelpOnMissing => "DisplayHelpOnMissingArgumentOrSubcommand"
  | .displayVersion => "DisplayVersion"

/-! ### Options -/

/-- An option of a command. -/
structure OptionSpec where
  name : String
  /-- The value is the path of a file and must not be empty. -/
  isPath : Bool
  /-- The option may be given several times. -/
  isList : Bool
deriving DecidableEq, Repr

/-- The options that were given, and one that still waits for its value or to be settled. -/
structure GivenOptions where
  values : Keyed (List String)
  pending : Option (OptionSpec × Option String)
deriving Repr

namespace GivenOptions

/-- No options yet. -/
def start : GivenOptions := ⟨[], none⟩

/-- The values of an option. -/
def of (g : GivenOptions) (name : String) : List String := (g.values.get? name).getD []

/-- Takes in an option with its value. -/
def take (g : GivenOptions) (o : OptionSpec) (value : String) : Except UsageError GivenOptions :=
  if !o.isList && g.values.contains o.name then .error .argumentConflict
  else if o.isPath && value = "" then .error .invalidValue
  else .ok { g with values := g.values.insert o.name (g.of o.name ++ [value]) }

/-- Takes in the option that is pending; it must have its value by now. -/
def settle (g : GivenOptions) : Except UsageError GivenOptions :=
  match g.pending with
  | none => .ok g
  | some (_, none) => .error .invalidValue
  | some (o, some value) => { g with pending := none }.take o value

/-- An argument by its form. -/
inductive Form
  /-- Two dashes alone: everything after them is a value. -/
  | escape
  /-- A name after two dashes, and the value attached to it. -/
  | long (name : String) (attached : Option String)
  /-- The first letter after one dash. -/
  | short (letter : Char)
  | value
deriving DecidableEq, Repr

/-- The form of an argument. -/
def Form.of (argument : String) : Form :=
  match argument.toList with
  | ['-', '-'] => .escape
  | '-' :: '-' :: rest =>
    match Text.cut '=' (String.ofList rest) with
    | some (name, attached) => .long name (some attached)
    | none => .long (String.ofList rest) none
  | '-' :: letter :: _ => .short letter
  | _ => .value

/-- The options out of a list of arguments. -/
def read (specs : List OptionSpec) (g : GivenOptions) : List String → Except UsageError GivenOptions
  | [] => g.settle
  | argument :: rest =>
    match Form.of argument with
    | .escape =>
      match rest with
      | [] => g.settle
      | _ :: _ => .error .unknownArgument
    | .short letter =>
      if letter = 'h' then g.settle.bind fun _ => .error .displayHelp
      else .error .unknownArgument
    | .long name attached =>
      match specs.find? fun o => o.name = name, attached with
      | some o, some value => do
        let g ← (← g.settle).take o value
        read specs g rest
      | some o, none => do
        let g ← g.settle
        read specs { g with pending := some (o, none) } rest
      | none, attached =>
        if name ≠ "help" then .error .unknownArgument
        else if attached.isSome then .error .tooManyValues
        else g.settle.bind fun _ => .error .displayHelp
    | .value =>
      match g.pending with
      | some (o, none) => read specs { g with pending := some (o, some argument) } rest
      | _ => .error .unknownArgument

/-- The value of an option that must be given. -/
def required (g : GivenOptions) (name : String) : Except UsageError String :=
  match g.of name with
  | value :: _ => .ok value
  | [] => .error .missingRequiredArgument

end GivenOptions

/-! ### Commands -/

namespace Command

/-- The configuration that is read when none is named. -/
def defaultConfig : String := "./tabula.json"

/-- The options of a command. -/
def specs? (name : String) : Option (List OptionSpec) :=
  let path (name : String) : OptionSpec := ⟨name, true, false⟩
  let text (name : String) : OptionSpec := ⟨name, false, false⟩
  let table := [path "config", path "schemas", text "table"]
  match name with
  | "compile" => some (table ++ [⟨"param", false, true⟩])
  | "ddl" => some table
  | "exec" => some [path "config", path "operation"]
  | "check-config" => some [path "config"]
  | _ => none

/-- A command with the options that were given for it. -/
def ofOptions (name : String) (g : GivenOptions) : Except UsageError Command := do
  let config := (g.of "config").headD defaultConfig
  match name with
  | "compile" =>
    return .compile config (← g.required "schemas") (← g.required "table") (g.of "param")
  | "ddl" => return .ddl config (← g.required "schemas") (← g.required "table")
  | "exec" => return .exec config (← g.required "operation")
  | _ => return .checkConfig config

/-- Whether a name is that of a command, the one for help included. -/
def isName (name : String) : Bool := (specs? name).isSome || name = "help"

/-- The request for help on the commands named by these arguments. -/
def help : List String → UsageError
  | [] => .displayHelp
  | [name] => if isName name then .displayHelp else .invalidSubcommand
  | _ :: _ :: _ => .invalidSubcommand

/-- The command of a list of arguments. -/
def ofArguments : List String → Except UsageError Command
  | [] => .error .displayHelpOnMissing
  | first :: rest =>
    match specs? first with
    | some specs => (GivenOptions.start.read specs rest).bind (ofOptions first)
    | none =>
      if first = "help" then .error (help rest)
      else
        .error <| match GivenOptions.Form.of first with
          | .escape =>
            match rest with
            | [] => .displayHelpOnMissing
            | next :: _ => if isName next then .unknownArgument else .invalidSubcommand
          | .long name attached =>
            if name ≠ "help" ∧ name ≠ "version" then .unknownArgument
            else if attached.isSome then .tooManyValues
            else if name = "help" then .displayHelp
            else .displayVersion
          | .short letter =>
            if letter = 'h' then .displayHelp
            else if letter = 'V' then .displayVersion
            else .unknownArgument
          | .value => .invalidSubcommand

@[simp] theorem ofArguments_nil : ofArguments [] = .error .displayHelpOnMissing := rfl

end Command

end DataAccess
