import Atlas.Text

/-!
# Go projects

What is known of a project: its directories with their source files, and for each file the package,
the imports and what is declared at its top.
-/

namespace Atlas.Golang

/-- A function, a method of a struct, or a method of an interface. -/
structure Function where
  name : String := ""
  doc : String := ""
  /-- The text of its parameters and results. -/
  signature : String := ""
  file : String := ""
  line : Nat := 0
  deriving DecidableEq, Repr

/-- A field of a struct. An embedded one bears the text of its type as its name. -/
structure StructField where
  name : String := ""
  type : String := ""
  tag : Option String := none
  doc : String := ""
  deriving DecidableEq, Repr

/-- A struct with the methods that the file declares after it. -/
structure Struct where
  name : String := ""
  doc : String := ""
  file : String := ""
  line : Nat := 0
  fields : List StructField := []
  methods : List Function := []
  deriving DecidableEq, Repr

/-- An interface. -/
structure Interface where
  name : String := ""
  doc : String := ""
  file : String := ""
  line : Nat := 0
  methods : List Function := []
  deriving DecidableEq, Repr

/-- A constant or a variable. -/
structure Value where
  name : String := ""
  type : String := ""
  doc : String := ""
  file : String := ""
  line : Nat := 0
  deriving DecidableEq, Repr

/-- A source file. -/
structure SourceFile where
  name : String := ""
  package : String := ""
  imports : List String := []
  interfaces : List Interface := []
  structs : List Struct := []
  constants : List Value := []
  vars : List Value := []
  functions : List Function := []
  deriving DecidableEq, Repr

/-- A directory with the source files in it. -/
structure Directory where
  path : String
  files : List SourceFile
  deriving DecidableEq, Repr

/-- A project. -/
structure Project where
  directories : List Directory := []
  deriving DecidableEq, Repr

/-- The structs of a directory. -/
def Directory.structs (d : Directory) : List Struct := d.files.flatMap (·.structs)

/-- The interfaces of a directory. -/
def Directory.interfaces (d : Directory) : List Interface := d.files.flatMap (·.interfaces)

/-- Whether a name is internal to its package, as one in lowercase is. -/
def isInternal (name : String) : Bool := name.toList.head?.any fun c => 'a' ≤ c && c ≤ 'z'

end Atlas.Golang
