import Atlas.Files.System

/-!
# A first settings file

The text of a settings file to start from, and writing it where nothing stands yet.
-/

namespace Atlas.Settings

/-- The name of the settings file. -/
def fileName : String := "aimap.yml"

/-- The settings file to start from. -/
def template : String :=
  Text.unlines [
    "# aimap configuration",
    "output:",
    "  format: \"markdown\" # One of: html, markdown, json, yaml",
    "  path: \"./docs\"     # Directory where documentation is generated",
    "",
    "golang:",
    "  enabled: true",
    "  report_level: \"standard\"  # One of: short, standard, complete",
    "  report_options:",
    "    show_imports: true",
    "    show_internal_funcs: true",
    "    show_tests: false",
    "    show_examples: true",
    "  paths:",
    "    - \"./cmd\"",
    "    - \"./internal\"",
    "    - \"./pkg\"",
    "  ignores:",
    "    - \".*_test\\\\.go$\"",
    "    - \"vendor/.*\"",
    "    - \"node_modules/.*\"",
    "",
    "kubernetes:",
    "  enabled: true",
    "  paths:",
    "    - \"./deploy\"",
    "  ignores:",
    "    - \".*\\\\.bak$\"",
    "    - \".*\\\\.tmp$\""]

/-- Writes the settings file to start from, unless something stands at its path. -/
def writeTemplate (path : String) : FileAction Unit := do
  if (← get).has path then throw (.config ("configuration file already exists: " ++ path))
  FileAction.write path template

end Atlas.Settings
