import Atlas.Docker.Compose
import Atlas.Docker.Dockerfile
import Atlas.Files.System

/-!
# Scanning a Docker project

The Dockerfiles below a root directory, those directly in it first, and its compose file.
-/

namespace Atlas.Docker

/-- Whether a file of this name is a Dockerfile. -/
def isDockerfile (name : String) : Bool := Text.startsWith "Dockerfile" name

/-- The Dockerfiles below a root that is known by a name: first those directly in it. -/
def dockerfilesOf (name : String) (root : FileTree) : List FileTree.Found :=
  let files := root.sourceFiles.filter fun f => isDockerfile (f.path.getLast?.getD name)
  files.filter (·.path.length == 1) ++ files.filter (·.path.length != 1)

/-- The names of compose files; the first one that is there counts. -/
def composeNames : List String := ["docker-compose.yml", "docker-compose.yaml"]

/-- The compose file of a root, if it can be read. The files are known by the names on the way to
them. -/
def composeOf (readable : List String → Bool) (root : FileTree) : Option Compose := do
  let (name, content) ← composeNames.findSome? fun n =>
    match root.at? [n] with
    | some (.file content) => some (n, content)
    | _ => none
  if readable [name] then (Compose.read name (Utf8.decodeLossy content)).toOption else none

/-- What a Dockerfile says, under its path from the root. -/
def readDockerfile (f : FileTree.Found) : Dockerfile :=
  Dockerfile.read (Path.ofNames f.path) (Utf8.decodeLossy f.content)

/-- The project at a path, of whose files some can be read. A Dockerfile that cannot is left out. -/
def scanReadable (readable : List String → Bool) (fs : FileSystem) (path : String) :
    Result Project :=
  match fs.get? path with
  | none => .error (.pathNotFound path)
  | some root => .ok {
      name := fs.projectName path
      dockerfiles := ((dockerfilesOf ((Path.fileName? path).getD "") root).filter
        (readable ·.path)).map readDockerfile
      compose := composeOf readable root }

/-- The project at a path. -/
def scan (fs : FileSystem) (path : String) : Result Project := scanReadable (fun _ => true) fs path

end Atlas.Docker
