import Atlas.Analysis.Phase
import Atlas.Analysis.World
import Atlas.Docker.Graph
import Atlas.Docker.Scan
import Atlas.Golang.Graph
import Atlas.Golang.Scan
import Atlas.Kubernetes.Graph
import Atlas.Kubernetes.Scan
import Atlas.Laravel.Graph
import Atlas.Laravel.Scan
import Atlas.Nextjs.Graph
import Atlas.Nextjs.Scan
import Atlas.Sql.Graph
import Atlas.Swagger.Read
import Atlas.Swagger.Report

/-!
# Analyses

What the phases found: one section for each kind of source, and the relations between entities by
the source they come from. A phase that fails leaves everything as it was and is noted; the phases
after it still run. A database that cannot be read is left out, and its phase does not fail.
-/

namespace Atlas

/-- What the phases of an analysis found. -/
structure Analysis where
  settings : Settings
  golang : Option Golang.Project := none
  kubernetes : Option Kubernetes.Manifests := none
  databases : List Sql.Database := []
  docker : Option Docker.Project := none
  laravel : Option Laravel.Project := none
  nextjs : Option Nextjs.Project := none
  swagger : Option Swagger.Spec := none
  /-- The relations of each source, in the order of the names of the sources. -/
  relations : List (String × List Relation) := []
  /-- The phases that failed, in the order in which they ran. -/
  failed : List Phase := []

namespace Analysis

/-- The relations that come from a source. -/
def relationsOf (a : Analysis) (source : String) : List Relation :=
  (a.relations.lookup source).getD []

/-- The analysis with more relations from a source, after those it has. -/
def relate (a : Analysis) (source : String) (g : Graph) : Analysis :=
  { a with relations :=
      Data.insertMember source (a.relationsOf source ++ g.relations) a.relations }

/-- How many relations there are. -/
def relationCount (a : Analysis) : Nat := (a.relations.flatMap (·.2)).length

/-! ## Phases -/

/-- The name of the source of what is found in a database. -/
def databaseSource (c : Connection) : String :=
  ((DatabaseType.ofCode? c.type).map (·.code)).getD ""

/-- The analysis with the database of a connection, if it can be read. -/
def addDatabase (w : World) (a : Analysis) (c : Connection) : Analysis :=
  match w.servers.database c with
  | .ok db => { a with databases := a.databases ++ [db] }.relate (databaseSource c) db.graph
  | .error _ => a

/-- The analysis after a phase. -/
def run (w : World) (a : Analysis) : Phase → Result Analysis
  | .golang => do
    let p ← Golang.scan w.files a.settings.golang.paths a.settings.golang.ignores
    return { a with golang := some p }.relate "golang" p.graph
  | .kubernetes => do
    let m ← Kubernetes.scan w.files a.settings.kubernetes.paths a.settings.kubernetes.ignores
    return { a with kubernetes := some m }.relate "kubernetes" m.graph
  | .databases => return a.settings.databases.connections.foldl (addDatabase w) a
  | .docker => do
    let p ← Docker.scan w.files a.settings.docker.path
    return { a with docker := some p }.relate "docker" p.graph
  | .laravel => do
    let p ← Laravel.scan w.files a.settings.laravel.path
    return { a with laravel := some p }.relate "laravel" p.graph
  | .nextjs => do
    let p ← Nextjs.scan w.files a.settings.nextjs.path
    return { a with nextjs := some p }.relate "nextjs" p.graph
  | .swagger => do
    let s ← Swagger.load w.files a.settings.swagger.file
    return { a with swagger := some s }.relate "swagger" s.graph

/-- The analysis after a phase that may fail. -/
def step (w : World) (a : Analysis) (p : Phase) : Analysis :=
  match a.run w p with
  | .ok b => b
  | .error _ => { a with failed := a.failed ++ [p] }

end Analysis

/-- The analysis of all that the settings ask for. -/
def analyse (w : World) (s : Settings) : Analysis :=
  s.phases.foldl (Analysis.step w) { settings := s }

end Atlas
