import Atlas.Laravel.Rules
import Atlas.Files.System

/-!
# Scanning a Laravel project

The project below a root directory, read from the places where the framework keeps its sources.
-/

namespace Atlas.Laravel

/-- The time stamp and the name of a migration: four groups of digits, then the name. A stem of
any other form is a name. -/
def splitMigrationName (stem : String) : String × String :=
  match Text.splitOn '_' stem with
  | a :: b :: c :: d :: e :: rest =>
    let stamp := [a, b, c, d]
    if stamp.all fun p => p ≠ "" ∧ p.toList.all Chars.isAsciiDigit then
      (String.intercalate "_" stamp, String.intercalate "_" (e :: rest))
    else ("", stem)
  | _ => ("", stem)

/-- A source: its path below the root, the stem of its name, and its text. -/
structure Source where
  path : String
  stem : String
  text : String

/-- The PHP sources below a directory of the project, or those directly in it. -/
def phpSources (root : FileTree) (directory : String) (recursive : Bool) : List Source :=
  let names := Text.splitOn '/' directory
  match root.at? names with
  | some (.directory es) =>
    ((FileTree.directory es).sourceFiles.filter fun f =>
      (f.path.getLast?.any fun n => Path.extension? n = some "php") &&
        (recursive || f.path.length == 1)).map fun f =>
      ⟨Path.ofNames (names ++ f.path), Path.stem (f.path.getLast?.getD ""),
        Utf8.decodeLossy f.content⟩
  | _ => []

/-- The routes of a route file. -/
def routesOf (root : FileTree) (source : String) : List Route :=
  match root.at? ["routes", source ++ ".php"] with
  | some (.file content) =>
    (routeRules.apply (Utf8.decodeLossy content) []).map ({ · with source })
  | _ => []

/-- The project of a tree. -/
def projectOf (name : String) (root : FileTree) : Project :=
  { name
    models := (phpSources root "app/Models" false).map fun s =>
      modelRules.apply s.text { name := s.stem, path := s.path }
    controllers :=
      ((phpSources root "app/Http/Controllers" true).filter (·.stem ≠ "Controller")).map fun s =>
        controllerRules.apply s.text { name := s.stem, path := s.path }
    routes := ["web", "api"].flatMap (routesOf root)
    migrations := (phpSources root "database/migrations" false).map fun s =>
      let (timestamp, name) := splitMigrationName s.stem
      migrationRules.apply s.text { name, timestamp, path := s.path }
    middleware := (phpSources root "app/Http/Middleware" false).map fun s => ⟨s.stem, s.path⟩
    providers := (phpSources root "app/Providers" false).map fun s =>
      providerRules.apply s.text { name := s.stem, path := s.path } }

/-- The project at a path. -/
def scan (fs : FileSystem) (path : String) : Result Project :=
  match fs.get? path with
  | none => .error (.pathNotFound path)
  | some root => .ok (projectOf (fs.projectName path) root)

end Atlas.Laravel
