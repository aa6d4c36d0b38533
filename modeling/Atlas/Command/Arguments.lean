import Atlas.Command.Basic

/-!
# Reading arguments

The arguments of the program as a request. They are read from left to right, and what is wrong first
counts. An option has its value behind an equals sign or in the next argument, which may not look
like an option itself; no option is given twice. After two dashes nothing may follow.
-/

namespace Atlas.Command

/-! ## Options -/

/-- An option that a command takes. -/
structure OptionSpec where
  name : String
  /-- Whether its value is a path, which is never empty. -/
  isPath : Bool := true

/-- What stands on the way to a request: help or the version asked for, or something wrong. -/
inductive Stop where
  | help
  | version
  | wrong (error : UsageError)

/-- The options read so far. -/
structure Given where
  verbose : Bool := false
  values : List (String × String) := []

/-- One more `verbose`. -/
def Given.setVerbose (g : Given) : Except Stop Given :=
  if g.verbose then .error (.wrong (.repeatedOption "--verbose"))
  else .ok { g with verbose := true }

/-- One more value. -/
def Given.add (g : Given) (o : OptionSpec) (value : String) : Except Stop Given :=
  if (g.values.lookup o.name).isSome then .error (.wrong (.repeatedOption ("--" ++ o.name)))
  else if o.isPath ∧ value = "" then .error (.wrong (.emptyValue ("--" ++ o.name)))
  else .ok { g with values := g.values ++ [(o.name, value)] }

/-- The letters behind a single dash. Only the program itself, not a command, has a version. -/
def Given.readLetters (ofProgram : Bool) (g : Given) : List Char → Except Stop Given
  | [] => .ok g
  | 'v' :: cs => do (← g.setVerbose).readLetters ofProgram cs
  | 'h' :: _ => .error .help
  | 'V' :: _ =>
    .error (if ofProgram then .version else .wrong (.unknownOption "-V"))
  | c :: _ => .error (.wrong (.unknownOption ("-" ++ c.toString)))

/-- An option that takes no value. -/
def Given.readFlag (ofProgram : Bool) (g : Given) (name : String) : Except Stop Given :=
  match name with
  | "verbose" => g.setVerbose
  | "help" => .error .help
  | "version" =>
    .error (if ofProgram then .version else .wrong (.unknownOption "--version"))
  | _ => .error (.wrong (.unknownOption ("--" ++ name)))

/-- The name and the value of an option that is written with two dashes. -/
def longOption? (argument : String) : Option (String × Option String) :=
  (Text.dropPrefix? "--" argument).map fun body =>
    match Text.cut? "=" body with
    | some (name, value) => (name, some value)
    | none => (body, none)

/-- Whether an argument looks like an option. -/
def isOption (argument : String) : Bool := Text.startsWith "-" argument && argument != "-"

/-- Reads the options of a command. -/
def readOptions (specs : List OptionSpec) (g : Given) : List String → Except Stop Given
  | [] => .ok g
  | argument :: rest =>
    if argument = "--" then
      match rest with
      | [] => .ok g
      | next :: _ => .error (.wrong (.unexpected next))
    else
      match longOption? argument with
      | some (name, value) =>
        match specs.find? (·.name == name), value with
        | some o, some value => do readOptions specs (← g.add o value) rest
        | some o, none =>
          match rest with
          | [] => .error (.wrong (.missingValue argument))
          | value :: rest =>
            if isOption value then .error (.wrong (.missingValue argument))
            else do readOptions specs (← g.add o value) rest
        | none, none => do readOptions specs (← g.readFlag false name) rest
        | none, some _ => .error (.wrong (.needlessValue ("--" ++ name)))
      | none =>
        if isOption argument then do
          readOptions specs (← g.readLetters false (argument.toList.drop 1)) rest
        else .error (.wrong (.unexpected argument))

/-! ## Commands -/

/-- The options that a command of this name takes. -/
def optionsOf? : String → Option (List OptionSpec)
  | "init" | "version" => some []
  | "generate" => some [⟨"config", true⟩, ⟨"format", false⟩, ⟨"output", false⟩]
  | "swagger" => some [⟨"file", true⟩, ⟨"output", true⟩]
  | "docker" | "laravel" | "nextjs" => some [⟨"path", true⟩, ⟨"output", true⟩]
  | "postgres" => some [⟨"conn", false⟩, ⟨"output", true⟩]
  | "mysql" => some [⟨"dsn", false⟩, ⟨"db", false⟩, ⟨"output", true⟩]
  | _ => none

/-- The value of an option, or the one it has without being given. -/
def Given.get (g : Given) (name standard : String) : String := (g.values.lookup name).getD standard

/-- The value of an option that has to be given. -/
def Given.require (g : Given) (name : String) : Except Stop String :=
  match g.values.lookup name with
  | some value => .ok value
  | none => .error (.wrong (.missingOption ("--" ++ name)))

/-- The command of a name with its options. -/
def ofOptions (g : Given) : String → Except Stop Command
  | "init" => return init
  | "generate" =>
    return generate (g.get "config" Settings.fileName) (g.values.lookup "format")
      (g.values.lookup "output")
  | "version" => return version
  | "swagger" => return swagger (← g.require "file") (g.get "output" "http-client")
  | "docker" => return docker (g.get "path" ".") (g.get "output" "docs/docker")
  | "laravel" => return laravel (g.get "path" ".") (g.get "output" "docs/laravel")
  | "nextjs" => return nextjs (g.get "path" ".") (g.get "output" "docs/nextjs")
  | "postgres" => return postgres (← g.require "conn") (g.get "output" "docs/database")
  | "mysql" =>
    return mysql (← g.require "dsn") (g.values.lookup "db") (g.get "output" "docs/database")
  | name => .error (.wrong (.unknownCommand name))

/-- Reads the arguments of the program, with the options of the program itself before the command. -/
def readArguments (g : Given) : List String → Except Stop Request
  | [] => .error (.wrong .noCommand)
  | argument :: rest =>
    if argument = "--" then
      .error (.wrong ((rest.head?.map .unexpected).getD .noCommand))
    else
      match longOption? argument with
      | some (name, none) => do readArguments (← g.readFlag true name) rest
      | some (name, some _) => .error (.wrong (.needlessValue ("--" ++ name)))
      | none =>
        if isOption argument then do
          readArguments (← g.readLetters true (argument.toList.drop 1)) rest
        else
          match argument, rest, optionsOf? argument with
          | "help", [], _ => .error .help
          | "help", [name], _ =>
            .error (if name = "help" ∨ (optionsOf? name).isSome then .help
              else .wrong (.unknownCommand name))
          | _, _, some specs => do
            let given ← readOptions specs {} rest
            return .run (g.verbose || given.verbose) (← ofOptions given argument)
          | name, _, none => .error (.wrong (.unknownCommand name))

/-- The request that the arguments of the program make. -/
def request (arguments : List String) : Except UsageError Request :=
  match readArguments {} arguments with
  | .ok r => .ok r
  | .error .help => .ok .help
  | .error .version => .ok .version
  | .error (.wrong e) => .error e

end Atlas.Command
