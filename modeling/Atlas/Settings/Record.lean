import Atlas.Data.Fields
import Atlas.Settings

/-!
# Records of settings

Settings as plain data, under the names that their file uses, and back. What a record leaves out has
its standard value.
-/

namespace Atlas

/-! ## Writing -/

/-- What a report shows, as plain data. -/
def ReportOptions.toData (o : ReportOptions) : Data :=
  .record [("show_imports", .bool o.showImports), ("show_internal_funcs", .bool o.showInternalFuncs),
    ("show_tests", .bool o.showTests), ("show_examples", .bool o.showExamples)]

/-- The settings for Go code as plain data. -/
def GoSettings.toData (g : GoSettings) : Data :=
  .record [("enabled", .bool g.enabled), ("report_level", .text g.reportLevel),
    ("report_options", g.reportOptions.toData), ("paths", .texts g.paths),
    ("ignores", .texts g.ignores)]

/-- A connection as plain data. -/
def Connection.toData (c : Connection) : Data :=
  .record [("name", .text c.name), ("type", .text c.type), ("host", .text c.host),
    ("port", .nat c.port), ("user", .text c.user), ("password", .text c.password),
    ("database", .text c.database), ("schema", .optionalText c.schema),
    ("timeout_secs", .nat c.timeout)]

/-- The settings for a project as plain data. -/
def ProjectSettings.toData (p : ProjectSettings) : Data :=
  .record [("enabled", .bool p.enabled), ("path", .text p.path)]

/-- Settings as plain data. -/
def Settings.toData (s : Settings) : Data :=
  .record [
    ("output", .record [("format", .text s.output.format), ("path", .text s.output.path)]),
    ("golang", s.golang.toData),
    ("kubernetes", .record [("enabled", .bool s.kubernetes.enabled),
      ("paths", .texts s.kubernetes.paths), ("ignores", .texts s.kubernetes.ignores)]),
    ("databases", .record [("enabled", .bool s.databases.enabled),
      ("connections", .list (s.databases.connections.map (·.toData)))]),
    ("docker", s.docker.toData), ("laravel", s.laravel.toData), ("nextjs", s.nextjs.toData),
    ("swagger", .record [("enabled", .bool s.swagger.enabled), ("file", .text s.swagger.file),
      ("output", .text s.swagger.output)])]

/-! ## Reading -/

/-- What a record holds under a name, or `standard` where it holds nothing. -/
def Data.orStandard {α : Type} (f : Data → α) (standard : α) (d : Data) (name : String) : α :=
  (Data.optionOf f d name).getD standard

/-- What a report shows, from a record. -/
def ReportOptions.ofData (d : Data) : ReportOptions :=
  { showImports := Data.orStandard Data.toFlag true d "show_imports"
    showInternalFuncs := Data.orStandard Data.toFlag true d "show_internal_funcs"
    showTests := d.flagOf "show_tests"
    showExamples := Data.orStandard Data.toFlag true d "show_examples" }

/-- The settings for Go code of a record. -/
def GoSettings.ofData (d : Data) : GoSettings :=
  { enabled := d.flagOf "enabled", reportLevel := d.textOf "report_level"
    reportOptions := .ofData (d.get "report_options")
    paths := d.textsOf "paths", ignores := d.textsOf "ignores" }

/-- The connection of a record. -/
def Connection.ofData (d : Data) : Connection :=
  { name := d.textOf "name", type := d.textOf "type", host := d.textOf "host"
    port := d.natOf "port", user := d.textOf "user", password := d.textOf "password"
    database := d.textOf "database", schema := d.textOf? "schema"
    timeout := Data.orStandard Data.toNat 30 d "timeout_secs" }

/-- The settings for a project of a record. -/
def ProjectSettings.ofData (d : Data) : ProjectSettings :=
  { enabled := d.flagOf "enabled", path := Data.orStandard Data.toText "." d "path" }

/-- The settings of a record. -/
def Settings.ofData (d : Data) : Settings :=
  let output := d.get "output"
  let kubernetes := d.get "kubernetes"
  let databases := d.get "databases"
  let swagger := d.get "swagger"
  { output :=
      { format := output.textOf "format"
        path := Data.orStandard Data.toText "./docs" output "path" }
    golang := .ofData (d.get "golang")
    kubernetes :=
      { enabled := kubernetes.flagOf "enabled", paths := kubernetes.textsOf "paths"
        ignores := kubernetes.textsOf "ignores" }
    databases :=
      { enabled := databases.flagOf "enabled"
        connections := Data.listOf Connection.ofData databases "connections" }
    docker := .ofData (d.get "docker")
    laravel := .ofData (d.get "laravel")
    nextjs := .ofData (d.get "nextjs")
    swagger :=
      { enabled := swagger.flagOf "enabled", file := swagger.textOf "file"
        output := Data.orStandard Data.toText "http-client" swagger "output" } }

end Atlas
