import Atlas.Files.Path
import Atlas.Settings
import Atlas.Golang.Project

/-!
# Reports on Go projects

The tree of the directories with its drawing, and the Markdown documentation of every file. The
level of a report and its options decide what is shown.
-/

namespace Atlas.Golang

/-! ## What is shown -/

/-- What a report may show. -/
inductive Content where
  | imports
  | interfaces
  | structs
  | constants
  | vars
  | functions
  | internal
  | tests
  | examples
  deriving DecidableEq, Repr

/-- Whether a report with these settings shows something. -/
def shows (g : GoSettings) (c : Content) : Bool :=
  let o := g.reportOptions
  match g.level, c with
  | .short, .structs | .short, .interfaces => true
  | .short, _ => false
  | _, .imports => o.showImports
  | _, .internal => o.showInternalFuncs
  | _, .tests => o.showTests
  | .complete, .examples => o.showExamples
  | _, _ => true

/-- Whether a member of this name is shown. -/
def showsMember (g : GoSettings) (name : String) : Bool := !isInternal name || shows g .internal

/-- Whether a function of this name is shown. -/
def showsFunction (g : GoSettings) (name : String) : Bool :=
  !(Text.startsWith "Example" name && !shows g .examples) && showsMember g name

/-! ## The tree -/

/-- A directory with the directories and the files in it. -/
inductive DirectoryNode where
  | mk (name : String) (children : List DirectoryNode) (files : List String)
  deriving Repr

namespace DirectoryNode

/-- The name of a directory. -/
def name : DirectoryNode → String
  | mk n _ _ => n

/-- The directory without anything in it. -/
def empty (name : String) : DirectoryNode := mk name [] []

/-- The directories with `f` applied to the first one of a name, which is made if there is none. -/
def updateNamed (name : String) (f : DirectoryNode → DirectoryNode) :
    List DirectoryNode → List DirectoryNode
  | [] => [f (empty name)]
  | d :: ds => if d.name = name then f d :: ds else d :: updateNamed name f ds

/-- The directory with more files at the end of a path of names, on which directories are made. -/
def addFiles (files : List String) : List String → DirectoryNode → DirectoryNode
  | [], mk n children fs => mk n children (fs ++ files)
  | part :: path, mk n children fs => mk n (updateNamed part (addFiles files path) children) fs

/-- The corner before an entry. -/
def corner (isLast : Bool) : String := if isLast then "└── " else "├── "

/-- The line of a directory. -/
def headLine (indent name : String) (isLast : Bool) : String :=
  if indent = "" then name else indent ++ corner isLast ++ name

/-- The indentation of what is in a directory. -/
def childIndent (indent : String) (isLast : Bool) : String :=
  if indent = "" then "    " else if isLast then indent ++ "    " else indent ++ "│   "

mutual

/-- The lines of a directory: itself, its files, and the directories in it. -/
def lines (indent : String) (isLast : Bool) : DirectoryNode → List String
  | mk name children files =>
    let indent' := childIndent indent isLast
    headLine indent name isLast :: (fileLines indent' children.isEmpty files ++
      childLines indent' children)

/-- The lines of the directories in one. -/
def childLines (indent : String) : List DirectoryNode → List String
  | [] => []
  | d :: ds => lines indent ds.isEmpty d ++ childLines indent ds

/-- The lines of the files in a directory, of which the last one may be followed by directories. -/
def fileLines (indent : String) (lastOfAll : Bool) : List String → List String
  | [] => []
  | f :: fs =>
    (indent ++ corner (fs.isEmpty && lastOfAll) ++ f) :: fileLines indent lastOfAll fs

end

/-- The drawing of a directory. -/
def drawing (d : DirectoryNode) : String := Text.unlines (lines "" true d)

end DirectoryNode

/-- The path of a directory as seen from the base of a report. -/
def relativePath (base path : String) : String :=
  match Path.relative? base path with
  | some rel => if rel = "" then "." else Text.replace "\\" "/" rel
  | none => path

/-- The last name of a path, or all of it. -/
def baseName (path : String) : String := (Path.fileName? path).getD path

/-- The names on the way to a directory. -/
def directoryKey (base path : String) : List String :=
  (Text.splitOn '/' (relativePath base path)).filter fun p => p ≠ "" ∧ p ≠ "."

/-- The tree of the directories of a project. -/
def Project.tree (p : Project) (base : String) : DirectoryNode :=
  p.directories.foldl (fun t d =>
    t.addFiles (d.files.map fun f => baseName f.name) (directoryKey base d.path))
    (.empty (baseName base))

/-! ## Markdown -/

/-- A text about a declaration below its heading. -/
def docBlock (doc : String) : List String := if doc = "" then [] else [Text.trim doc, ""]

/-- A text about a declaration below its item. -/
def docItem (doc : String) : List String := if doc = "" then [] else ["  - " ++ Text.trim doc]

/-- A heading with the lines of some items, if there are any and they are shown. -/
def titled {α : Type} (shown : Bool) (title : String) (items : List α)
    (body : List α → List String) : List String :=
  if !items.isEmpty && shown then ("#### " ++ title) :: "" :: body items else []

/-- The lines of methods. -/
def methodsBlock (g : GoSettings) (ms : List Function) : List String :=
  if ms.isEmpty then []
  else
    ["Methods:", ""] ++ (ms.filter fun m => showsMember g m.name).flatMap (fun m =>
      ("- `" ++ m.name ++ m.signature ++ "`") :: docItem m.doc) ++ [""]

/-- The lines of an interface. -/
def Interface.block (g : GoSettings) (i : Interface) : List String :=
  ("##### Interface `" ++ i.name ++ "`") :: "" :: (docBlock i.doc ++ methodsBlock g i.methods)

/-- The lines of a field. -/
def StructField.lines (f : StructField) : List String :=
  let tag := match f.tag with
    | some t => " `" ++ t ++ "`"
    | none => ""
  ("- `" ++ f.name ++ " " ++ f.type ++ "`" ++ tag) :: docItem f.doc

/-- The lines of a struct. -/
def Struct.block (g : GoSettings) (s : Struct) : List String :=
  let fields :=
    if s.fields.isEmpty then []
    else ["Fields:", ""] ++
      (s.fields.filter fun f => showsMember g f.name).flatMap StructField.lines ++ [""]
  ("##### Struct `" ++ s.name ++ "`") :: "" ::
    (docBlock s.doc ++ fields ++ methodsBlock g s.methods)

/-- The lines of a constant or a variable. -/
def Value.lines (v : Value) : List String :=
  ("- `" ++ v.name ++ " " ++ v.type ++ "`") :: docItem v.doc

/-- The lines of a function. -/
def Function.block (f : Function) : List String :=
  ("##### `" ++ f.name ++ f.signature ++ "`") :: "" :: docBlock f.doc

/-- The lines of a file. -/
def SourceFile.block (g : GoSettings) (f : SourceFile) : List String :=
  if Text.endsWith "_test.go" f.name && !shows g .tests then []
  else
    ["### File: " ++ baseName f.name, ""] ++
      titled (shows g .imports) "Imports" f.imports
        (fun is => is.map (fun i => "- `" ++ i ++ "`") ++ [""]) ++
      titled (shows g .interfaces) "Interfaces" f.interfaces
        (fun is => is.flatMap (Interface.block g)) ++
      titled (shows g .structs) "Structs" f.structs (fun ss => ss.flatMap (Struct.block g)) ++
      titled (shows g .constants) "Constants" f.constants
        (fun vs => vs.flatMap Value.lines ++ [""]) ++
      titled (shows g .vars) "Variables" f.vars
        (fun vs => vs.flatMap Value.lines ++ [""]) ++
      titled (shows g .functions) "Functions" (f.functions.filter fun f => showsFunction g f.name)
        (fun fs => fs.flatMap Function.block) ++
      ["", "---", ""]

/-- The lines of a directory. -/
def Directory.block (base : String) (g : GoSettings) (d : Directory) : List String :=
  ["## Package: " ++ relativePath base d.path, ""] ++ d.files.flatMap (SourceFile.block g)

/-- The Markdown documentation of a project. -/
def Project.markdown (p : Project) (base : String) (g : GoSettings) : String :=
  Text.unlines <|
    ["# Project Documentation", "", "## Project Structure", "", "```"] ++
      (p.tree base).lines "" true ++ ["```", ""] ++ p.directories.flatMap (Directory.block base g)

end Atlas.Golang
