import Atlas.Golang.Project
import Atlas.Data.Fields

/-!
# Go records

Go projects as plain data, and back.
-/

namespace Atlas.Golang

/-- The members that say where something is declared. -/
def placeMembers (file : String) (line : Nat) : List (String × Data) :=
  [("file", .text file), ("line", .nat line)]

/-- A function as plain data. -/
def Function.toData (f : Function) : Data :=
  .record ([("name", .text f.name), ("doc", .text f.doc), ("sig", .text f.signature)] ++
    placeMembers f.file f.line)

/-- A field as plain data. -/
def StructField.toData (f : StructField) : Data :=
  .record ([("name", .text f.name), ("type", .text f.type)] ++
    Data.member? "tag" (f.tag.map .text) ++ [("doc", .text f.doc)])

/-- A struct as plain data. -/
def Struct.toData (s : Struct) : Data :=
  .record ([("name", .text s.name), ("doc", .text s.doc)] ++ placeMembers s.file s.line ++
    [("fields", .list (s.fields.map (·.toData))), ("methods", .list (s.methods.map (·.toData)))])

/-- An interface as plain data. -/
def Interface.toData (i : Interface) : Data :=
  .record ([("name", .text i.name), ("doc", .text i.doc)] ++ placeMembers i.file i.line ++
    [("methods", .list (i.methods.map (·.toData)))])

/-- A constant or a variable as plain data. -/
def Value.toData (v : Value) : Data :=
  .record ([("name", .text v.name), ("type", .text v.type), ("doc", .text v.doc)] ++
    placeMembers v.file v.line)

/-- A file as plain data. -/
def SourceFile.toData (f : SourceFile) : Data :=
  .record [("file_name", .text f.name), ("package", .text f.package),
    ("imports", .texts f.imports), ("interfaces", .list (f.interfaces.map (·.toData))),
    ("structs", .list (f.structs.map (·.toData))), ("constants", .list (f.constants.map (·.toData))),
    ("variables", .list (f.vars.map (·.toData))),
    ("functions", .list (f.functions.map (·.toData)))]

/-- A project as plain data. -/
def Project.toData (p : Project) : Data :=
  .record [("directories", .list (p.directories.map fun d =>
    .record [("path", .text d.path), ("files", .list (d.files.map (·.toData)))]))]

/-! ## Reading -/

/-- The function of a record. -/
def Function.ofData (d : Data) : Function :=
  { name := d.textOf "name", doc := d.textOf "doc", signature := d.textOf "sig"
    file := d.textOf "file", line := d.natOf "line" }

/-- The field of a record. -/
def StructField.ofData (d : Data) : StructField :=
  { name := d.textOf "name", type := d.textOf "type", tag := d.textOf? "tag", doc := d.textOf "doc" }

/-- The struct of a record. -/
def Struct.ofData (d : Data) : Struct :=
  { name := d.textOf "name", doc := d.textOf "doc", file := d.textOf "file", line := d.natOf "line"
    fields := Data.listOf StructField.ofData d "fields"
    methods := Data.listOf Function.ofData d "methods" }

/-- The interface of a record. -/
def Interface.ofData (d : Data) : Interface :=
  { name := d.textOf "name", doc := d.textOf "doc", file := d.textOf "file", line := d.natOf "line"
    methods := Data.listOf Function.ofData d "methods" }

/-- The constant or variable of a record. -/
def Value.ofData (d : Data) : Value :=
  { name := d.textOf "name", type := d.textOf "type", doc := d.textOf "doc"
    file := d.textOf "file", line := d.natOf "line" }

/-- The file of a record. -/
def SourceFile.ofData (d : Data) : SourceFile :=
  { name := d.textOf "file_name", package := d.textOf "package", imports := d.textsOf "imports"
    interfaces := Data.listOf Interface.ofData d "interfaces"
    structs := Data.listOf Struct.ofData d "structs"
    constants := Data.listOf Value.ofData d "constants"
    vars := Data.listOf Value.ofData d "variables"
    functions := Data.listOf Function.ofData d "functions" }

/-- The project of a record. -/
def Project.ofData (d : Data) : Project :=
  ⟨Data.listOf (fun d => ⟨d.textOf "path", Data.listOf SourceFile.ofData d "files"⟩)
    d "directories"⟩

end Atlas.Golang
