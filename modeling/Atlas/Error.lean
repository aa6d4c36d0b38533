/-!
# Errors

What can go wrong while a project is documented, by cause, and the sentence that is shown for it.
-/

namespace Atlas

/-- The cause of a failure. -/
inductive Error where
  /-- A file could not be read or written. -/
  | io (detail : String)
  /-- A text is no YAML, or not of the expected shape. -/
  | yaml (detail : String)
  /-- A text is no JSON, or not of the expected shape. -/
  | json (detail : String)
  /-- A pattern cannot be read. -/
  | pattern (detail : String)
  /-- A setting is missing or has no meaning. -/
  | config (detail : String)
  /-- A path that has to exist does not. -/
  | pathNotFound (path : String)
  /-- A file does not follow its format. -/
  | parse (path detail : String)
  /-- A database cannot be reached or read. -/
  | database (detail : String)
  /-- A file is no description of an API. -/
  | invalidSpec (detail : String)
  /-- The documentation cannot be written in this format. -/
  | unsupportedFormat (format : String)
  /-- Something with this key was recorded before. -/
  | duplicate (key : String)
  deriving DecidableEq, Repr

/-- The sentence shown for a failure. -/
def Error.message : Error → String
  | .io d => "IO error: " ++ d
  | .yaml d => "YAML error: " ++ d
  | .json d => "JSON error: " ++ d
  | .pattern d => "Invalid pattern: " ++ d
  | .config d => "Configuration error: " ++ d
  | .pathNotFound p => "Path not found: " ++ p
  | .parse p d => "Parse error in " ++ p ++ ": " ++ d
  | .database d => "Database error: " ++ d
  | .invalidSpec d => "Invalid API description: " ++ d
  | .unsupportedFormat f => "Unsupported output format: " ++ f
  | .duplicate k => "Duplicate entity: " ++ k

/-- A computation that may fail. -/
abbrev Result := Except Error

end Atlas
