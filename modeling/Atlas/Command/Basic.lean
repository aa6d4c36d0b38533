import Atlas.Settings.Template

/-!
# Commands

What the program can be asked to do, and what is wrong with a request that it cannot read.
-/

namespace Atlas

/-- What the program can be asked to do. -/
inductive Command where
  /-- Write a settings file to start from. -/
  | init
  /-- Document what a settings file asks for, in another format or directory if one is given. -/
  | generate (settings : String) (format output : Option String)
  /-- Show the version. -/
  | version
  /-- Write the requests of an API. -/
  | swagger (file output : String)
  /-- Draw the containers of a project. -/
  | docker (path output : String)
  /-- Draw the classes of a Laravel project. -/
  | laravel (path output : String)
  /-- Draw the classes of a Next.js project. -/
  | nextjs (path output : String)
  /-- Draw the tables of the PostgreSQL database at an address. -/
  | postgres (address output : String)
  /-- Draw the tables of a MySQL database at an address. -/
  | mysql (address : String) (database : Option String) (output : String)
  deriving DecidableEq, Repr

/-- A request to the program. -/
inductive Request where
  /-- Run a command, with more to be shown if `verbose`. -/
  | run (verbose : Bool) (command : Command)
  /-- Show how the program is used. -/
  | help
  /-- Show the name of the program with its version. -/
  | version
  deriving DecidableEq, Repr

/-- What is wrong with the arguments of a request. -/
inductive UsageError where
  | noCommand
  | unknownCommand (name : String)
  | unknownOption (name : String)
  | repeatedOption (name : String)
  | missingOption (name : String)
  | missingValue (name : String)
  | emptyValue (name : String)
  | needlessValue (name : String)
  | unexpected (argument : String)
  deriving DecidableEq, Repr

/-- The sentence shown for what is wrong. -/
def UsageError.message : UsageError → String
  | noCommand => "a command is required"
  | unknownCommand c => "unknown command " ++ c
  | unknownOption o => "unknown option " ++ o
  | repeatedOption o => "the option " ++ o ++ " is given more than once"
  | missingOption o => "the option " ++ o ++ " is required"
  | missingValue o => "the option " ++ o ++ " needs a value"
  | emptyValue o => "the value of the option " ++ o ++ " is empty"
  | needlessValue o => "the option " ++ o ++ " takes no value"
  | unexpected a => "unexpected argument " ++ a

namespace Command

/-- The name of the program. -/
def programName : String := "aimap"

/-- The version of the program. -/
def programVersion : String := "0.1.1"

/-- The way the program is used. -/
def usage : List String :=
  ["Usage: " ++ programName ++ " [--verbose] COMMAND", "", "Commands:",
    "  init", "  generate [--config FILE] [--format FORMAT] [--output DIRECTORY]", "  version",
    "  swagger --file FILE [--output DIRECTORY]", "  docker [--path DIRECTORY] [--output DIRECTORY]",
    "  laravel [--path DIRECTORY] [--output DIRECTORY]",
    "  nextjs [--path DIRECTORY] [--output DIRECTORY]",
    "  postgres --conn ADDRESS [--output DIRECTORY]",
    "  mysql --dsn ADDRESS [--db NAME] [--output DIRECTORY]"]

end Command

end Atlas
