import Atlas.Error
import Atlas.Files.Path
import Atlas.Yaml.Decode

/-!
# Settings

What a run is to document, and how: the settings for the output and for each kind of project.
`Settings.read` reads them from their file, `Settings.validate` checks them in a fixed order and
fills in what is empty, and `Settings.clean` tidies their paths.
-/

namespace Atlas

/-! ## Words of the settings -/

/-- The format of the documentation. -/
inductive OutputFormat where
  | html
  | markdown
  | json
  | yaml
  | text
  deriving DecidableEq, Repr

namespace OutputFormat

/-- All formats. -/
def all : List OutputFormat := [.html, .markdown, .json, .yaml, .text]

/-- The word for a format. -/
def code : OutputFormat → String
  | .html => "html"
  | .markdown => "markdown"
  | .json => "json"
  | .yaml => "yaml"
  | .text => "text"

/-- The format that a word stands for. -/
def ofCode? (s : String) : Option OutputFormat := all.find? fun f => f.code == s

/-- How the name of a file in this format ends. -/
def extension : OutputFormat → String
  | .html => "html"
  | .markdown => "md"
  | .json => "json"
  | .yaml => "yaml"
  | .text => "txt"

theorem ofCode?_code (f : OutputFormat) : ofCode? f.code = some f := by cases f <;> rfl

end OutputFormat

/-- How much a report on Go code tells. -/
inductive ReportLevel where
  | short
  | standard
  | complete
  deriving DecidableEq, Repr

namespace ReportLevel

/-- All levels. -/
def all : List ReportLevel := [.short, .standard, .complete]

/-- The word for a level. -/
def code : ReportLevel → String
  | .short => "short"
  | .standard => "standard"
  | .complete => "complete"

/-- The level that a word stands for. -/
def ofCode? (s : String) : Option ReportLevel := all.find? fun l => l.code == s

theorem ofCode?_code (l : ReportLevel) : ofCode? l.code = some l := by cases l <;> rfl

end ReportLevel

/-- The kind of a database server. -/
inductive DatabaseType where
  | postgres
  | mysql
  deriving DecidableEq, Repr

namespace DatabaseType

/-- All kinds. -/
def all : List DatabaseType := [.postgres, .mysql]

/-- The word for a kind. -/
def code : DatabaseType → String
  | .postgres => "postgres"
  | .mysql => "mysql"

/-- The kind that a word stands for. -/
def ofCode? (s : String) : Option DatabaseType := all.find? fun t => t.code == s

theorem ofCode?_code (t : DatabaseType) : ofCode? t.code = some t := by cases t <;> rfl

end DatabaseType

/-! ## Settings by topic -/

/-- Where the documentation is written, and in which format. -/
structure OutputSettings where
  format : String := ""
  path : String := "./docs"
  deriving DecidableEq, Repr

/-- What a report on Go code shows. -/
structure ReportOptions where
  showImports : Bool := true
  showInternalFuncs : Bool := true
  showTests : Bool := false
  showExamples : Bool := true
  deriving DecidableEq, Repr

structure GoSettings where
  enabled : Bool := false
  /-- The word for the level; without one it is the standard level. -/
  reportLevel : String := ""
  reportOptions : ReportOptions := {}
  paths : List String := []
  ignores : List String := []
  deriving DecidableEq, Repr

/-- The level of the report on Go code. -/
def GoSettings.level (g : GoSettings) : ReportLevel :=
  (ReportLevel.ofCode? g.reportLevel).getD .standard

structure KubernetesSettings where
  enabled : Bool := false
  paths : List String := []
  ignores : List String := []
  deriving DecidableEq, Repr

/-- How a database is reached. -/
structure Connection where
  name : String := ""
  type : String := ""
  host : String := ""
  port : Nat := 0
  user : String := ""
  password : String := ""
  database : String := ""
  /-- The one schema to document. -/
  schema : Option String := none
  /-- How many seconds a query may take. -/
  timeout : Nat := 30
  deriving DecidableEq, Repr

structure DatabaseSettings where
  enabled : Bool := false
  connections : List Connection := []
  deriving DecidableEq, Repr

/-- The settings for a kind of project that has a single root. -/
structure ProjectSettings where
  enabled : Bool := false
  path : String := "."
  deriving DecidableEq, Repr

structure SwaggerSettings where
  enabled : Bool := false
  file : String := ""
  output : String := "http-client"
  deriving DecidableEq, Repr

structure Settings where
  output : OutputSettings := {}
  golang : GoSettings := {}
  kubernetes : KubernetesSettings := {}
  databases : DatabaseSettings := {}
  docker : ProjectSettings := {}
  laravel : ProjectSettings := {}
  nextjs : ProjectSettings := {}
  swagger : SwaggerSettings := {}
  deriving DecidableEq, Repr

/-! ## Reading -/

namespace Settings

open Yaml (Decode)
open Yaml.Decode

attribute [local instance (high)] instPowNat

/-- Reads the settings for the output. -/
def output? : Decode OutputSettings := fun d n => do
  let fs ← fields d n
  unique ["format", "path"] fs
  return {
    format := ← field d fs "format" "" text
    path := ← field d fs "path" "./docs" text }

/-- Reads what a report on Go code shows. -/
def reportOptions? : Decode ReportOptions := fun d n => do
  let fs ← fields d n
  unique ["show_imports", "show_internal_funcs", "show_tests", "show_examples"] fs
  return {
    showImports := ← field d fs "show_imports" true bool
    showInternalFuncs := ← field d fs "show_internal_funcs" true bool
    showTests := ← field d fs "show_tests" false bool
    showExamples := ← field d fs "show_examples" true bool }

/-- Reads the settings for Go code. -/
def golang? : Decode GoSettings := fun d n => do
  let fs ← fields d n
  unique ["enabled", "report_level", "report_options", "paths", "ignores"] fs
  return {
    enabled := ← field d fs "enabled" false bool
    reportLevel := ← field d fs "report_level" "" text
    reportOptions := ← field d fs "report_options" {} reportOptions?
    paths := ← field d fs "paths" [] (list text)
    ignores := ← field d fs "ignores" [] (list text) }

/-- Reads the settings for Kubernetes manifests. -/
def kubernetes? : Decode KubernetesSettings := fun d n => do
  let fs ← fields d n
  unique ["enabled", "paths", "ignores"] fs
  return {
    enabled := ← field d fs "enabled" false bool
    paths := ← field d fs "paths" [] (list text)
    ignores := ← field d fs "ignores" [] (list text) }

/-- Reads how a database is reached. -/
def connection? : Decode Connection := fun d n => do
  let fs ← fields d n
  unique ["name", "type", "host", "port", "user", "password", "database", "schema",
    "timeout_secs"] fs
  return {
    name := ← field d fs "name" "" text
    type := ← field d fs "type" "" text
    host := ← field d fs "host" "" text
    port := ← field d fs "port" 0 (natural (2 ^ (16 : Nat)))
    user := ← field d fs "user" "" text
    password := ← field d fs "password" "" text
    database := ← field d fs "database" "" text
    schema := ← field d fs "schema" none (optional text)
    timeout := ← field d fs "timeout_secs" 30 (natural (2 ^ (64 : Nat))) }

/-- Reads the settings for databases. -/
def databases? : Decode DatabaseSettings := fun d n => do
  let fs ← fields d n
  unique ["enabled", "connections"] fs
  return {
    enabled := ← field d fs "enabled" false bool
    connections := ← field d fs "connections" [] (list connection?) }

/-- Reads the settings for a kind of project that has a single root. -/
def project? : Decode ProjectSettings := fun d n => do
  let fs ← fields d n
  unique ["enabled", "path"] fs
  return {
    enabled := ← field d fs "enabled" false bool
    path := ← field d fs "path" "." text }

/-- Reads the settings for API descriptions. -/
def swagger? : Decode SwaggerSettings := fun d n => do
  let fs ← fields d n
  unique ["enabled", "file", "output"] fs
  return {
    enabled := ← field d fs "enabled" false bool
    file := ← field d fs "file" "" text
    output := ← field d fs "output" "http-client" text }

/-- Reads all settings. -/
def settings? : Decode Settings := fun d n => do
  let fs ← fields d n
  unique ["output", "golang", "kubernetes", "databases", "docker", "laravel", "nextjs",
    "swagger"] fs
  return {
    output := ← field d fs "output" {} output?
    golang := ← field d fs "golang" {} golang?
    kubernetes := ← field d fs "kubernetes" {} kubernetes?
    databases := ← field d fs "databases" {} databases?
    docker := ← field d fs "docker" {} project?
    laravel := ← field d fs "laravel" {} project?
    nextjs := ← field d fs "nextjs" {} project?
    swagger := ← field d fs "swagger" {} swagger? }

/-- The settings of a text as they are written. An empty text has none but the standard ones. -/
def decode? (s : String) : Option Settings := do
  let d ← Yaml.Document.read? s
  match d.root with
  | some n => settings? d n
  | none => some {}

/-! ## Validation -/

/-- Fails with a message on the settings unless `holds`. -/
def require (holds : Bool) (message : String) : Result Unit :=
  if holds then .ok () else .error (.config message)

/-- The format of the documentation. -/
def outputFormat (s : Settings) : Result OutputFormat :=
  match OutputFormat.ofCode? s.output.format with
  | some f => .ok f
  | none =>
    .error (.config "invalid output format (use: html, markdown, json, yaml or text)")

/-- Whether there is anything to document. -/
def anyEnabled (s : Settings) : Bool :=
  s.golang.enabled || s.kubernetes.enabled || s.databases.enabled || s.docker.enabled ||
    s.laravel.enabled || s.nextjs.enabled || s.swagger.enabled

/-- Checks that everything needed to reach a database is there. -/
def validateConnection (c : Connection) : Result Unit := do
  require (!c.name.isEmpty) "database connection name not specified"
  require (DatabaseType.ofCode? c.type).isSome "invalid database type (use: postgres or mysql)"
  require (!c.host.isEmpty) "database host not specified"
  require (c.port != 0) "database port not specified"
  require (!c.database.isEmpty) "database name not specified"

/-- Checks the settings for Go code. Without a level the standard one is filled in. -/
def validateGolang (g : GoSettings) : Result GoSettings := do
  if !g.enabled then return g
  require (!g.paths.isEmpty) "no paths specified for Go code analysis"
  let g := if g.reportLevel.isEmpty then { g with reportLevel := ReportLevel.standard.code } else g
  require (ReportLevel.ofCode? g.reportLevel).isSome
    "invalid report level (use: short, standard or complete)"
  return g

/-- Checks the settings for databases. -/
def validateDatabases (d : DatabaseSettings) : Result Unit := do
  if !d.enabled then return
  require (!d.connections.isEmpty) "no database connections configured"
  d.connections.forM validateConnection

/-- Checks the settings, and fills in what is empty. -/
def validate (s : Settings) : Result Settings := do
  require (!s.output.format.isEmpty) "output format not specified"
  let _ ← s.outputFormat
  let s := if s.output.path.isEmpty then { s with output := { s.output with path := "./docs" } }
    else s
  require s.anyEnabled
    "at least one module (golang, kubernetes, databases, docker, laravel, nextjs or swagger) must be enabled"
  let golang ← validateGolang s.golang
  require (!s.kubernetes.enabled || !s.kubernetes.paths.isEmpty)
    "no paths specified for Kubernetes resource analysis"
  validateDatabases s.databases
  require (!s.swagger.enabled || !s.swagger.file.isEmpty) "no file specified for Swagger analysis"
  return { s with golang := golang }

/-! ## Paths -/

/-- The settings for a project with its path cleaned. -/
def cleanProject (p : ProjectSettings) : ProjectSettings := { p with path := Path.clean p.path }

/-- The settings with all paths cleaned, but for the one where request files are written. -/
def clean (s : Settings) : Settings :=
  { s with
    output := { s.output with path := Path.clean s.output.path }
    golang := { s.golang with paths := s.golang.paths.map Path.clean }
    kubernetes := { s.kubernetes with paths := s.kubernetes.paths.map Path.clean }
    docker := cleanProject s.docker
    laravel := cleanProject s.laravel
    nextjs := cleanProject s.nextjs
    swagger := if s.swagger.file.isEmpty then s.swagger
      else { s.swagger with file := Path.clean s.swagger.file } }

/-- The settings of a text, checked and cleaned. -/
def read (text : String) : Result Settings := do
  match decode? text with
  | some s => return (← s.validate).clean
  | none => .error (.yaml "the settings cannot be read")

end Settings

end Atlas
