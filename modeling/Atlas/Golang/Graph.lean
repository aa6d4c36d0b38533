import Atlas.Golang.Relation
import Atlas.Graph

/-!
# Entities of a Go project

The packages with the structs, interfaces and functions they contain, which structs use which, and
which interfaces structs implement. Names are told apart by their directory.
-/

namespace Atlas.Golang

/-- An entity of a directory. -/
def entityIn (directory : String) (kind : EntityKind) (name : String) : Entity :=
  { kind, name, scope := some directory }

/-- The members of a file, with what is known of them. -/
def SourceFile.members (f : SourceFile) (directory : String) : List EntityNode :=
  let node (kind : EntityKind) (name doc : String) : EntityNode :=
    { entity := entityIn directory kind name, attributes := [("file", f.name)] : EntityNode }.withDoc
      (some doc)
  f.structs.map (fun s => node .struct s.name s.doc) ++
    f.interfaces.map (fun i => node .interface i.name i.doc) ++
    f.functions.map (fun fn => node .function fn.name fn.doc)

/-- The graph with a member of a package, unless it was declared before. -/
def addMember (package : Entity) (g : Graph) (n : EntityNode) : Graph :=
  match g.add n with
  | .ok (_, g) => g.relate ⟨package, n.entity, .contains, none⟩
  | .error _ => g

/-- The graph with the package and the members of a file. -/
def addFile (directory : String) (g : Graph) (f : SourceFile) : Graph :=
  let package := entityIn directory .package f.package
  (f.members directory).foldl (addMember package) (g.ensure package).2

/-- The structs of the directory that a struct uses, and the interfaces that it implements. -/
def Directory.relationsOf (d : Directory) (s : Struct) : List Relation :=
  let source := entityIn d.path .struct s.name
  let uses (f : StructField) : Option Relation :=
    match f.localType? with
    | some name =>
      if name ≠ s.name ∧ d.structs.any (·.name == name) then
        some ⟨source, entityIn d.path .struct name, .uses, some f.name⟩
      else none
    | none => none
  let implemented := d.interfaces.filter (implements s)
  s.fields.filterMap uses ++
    implemented.map fun i => ⟨source, entityIn d.path .interface i.name, .implements, none⟩

/-- The graph with a directory. -/
def addDirectory (g : Graph) (d : Directory) : Graph :=
  (d.structs.flatMap d.relationsOf).foldl Graph.relate (d.files.foldl (addFile d.path) g)

/-- The graph of a project. -/
def Project.graph (p : Project) : Graph := p.directories.foldl addDirectory Graph.empty

end Atlas.Golang
