import Atlas.Golang.Relation
import Atlas.Diagram.Mermaid

/-!
# Class diagrams of Go projects

One class for each struct and each interface, by package and name, with edges to the types that
fields refer to and to the interfaces that structs implement.
-/

namespace Atlas.Golang

/-- How many methods a class shows. -/
def shownMethods : Nat := 5

/-- The identifier of the class of a type. -/
def className (package name : String) : String := package ++ "_" ++ name

/-- The lines for the methods of a class. -/
def methodLines (ms : List Function) : List String :=
  (ms.take shownMethods).map fun m => "+" ++ m.name ++ "()"

/-- The class of a struct. -/
def Struct.node (package : String) (s : Struct) : Node :=
  let n : Node := { shape := .classBox, id := className package s.name, label := s.name }
  n.addSection
    { lines := s.fields.map (fun f => "+" ++ f.name ++ " " ++ displayType f.type) ++
        methodLines s.methods }

/-- The class of an interface. -/
def Interface.node (package : String) (i : Interface) : Node :=
  let n : Node :=
    { shape := .classBox, id := className package i.name, label := i.name
      stereotype := some "interface" }
  n.addSection { lines := methodLines i.methods }

/-- The interfaces of a directory with their packages. -/
def Directory.packagedInterfaces (d : Directory) : List (String × Interface) :=
  d.files.flatMap fun f => f.interfaces.map (f.package, ·)

/-- The edges that start at the class of a struct. -/
def Struct.edges (d : Directory) (package : String) (s : Struct) : List Edge :=
  let source := className package s.name
  let uses := s.fields.filterMap fun f =>
    (relatedType? f.type).map fun (other, name) =>
      ({ source, arrow := "-->", target := className (other.getD package) name } : Edge)
  let implemented := d.packagedInterfaces.filter fun (_, i) => implements s i
  uses ++ implemented.map fun (other, i) =>
    { source, arrow := "..|>", target := className other i.name }

/-- A class with the edges that start at it. -/
abbrev Class := Node × List Edge

/-- The classes of a file. -/
def SourceFile.classes (d : Directory) (f : SourceFile) : List Class :=
  f.structs.map (fun s => (s.node f.package, s.edges d f.package)) ++
    f.interfaces.map (fun i => (i.node f.package, []))

/-- The classes of a project. -/
def Project.classes (p : Project) : List Class :=
  p.directories.flatMap fun d => d.files.flatMap (SourceFile.classes d)

/-- The first class of each identifier. -/
def firstClasses (classes : List Class) : List Class :=
  classes.foldl (fun kept c => if kept.any (·.1.id == c.1.id) then kept else kept ++ [c]) []

/-- The edges, each once. -/
def distinctEdges (edges : List Edge) : List Edge :=
  edges.foldl (fun kept e => if kept.contains e then kept else kept ++ [e]) []

/-- The class diagram of a project. -/
def Project.classDiagram (p : Project) : Diagram :=
  let classes := firstClasses p.classes
  { title := "Go structure"
    nodes := classes.map (·.1)
    edges := distinctEdges (classes.flatMap (·.2)) }

end Atlas.Golang
