import Atlas.Files.System
import Atlas.Ignore
import Atlas.Golang.Document

/-!
# Scanning Go projects

The Go files below some root directories, directory by directory. A directory that matches an
ignored pattern is left out with all below it, and so is a file that does, or that is no Go.
-/

namespace Atlas.Golang

/-- Whether a file of this name is a Go file. -/
def isGoFile (name : String) : Bool := Path.extension? name == some "go"

/-- The documentation of an entry of a directory, if it is a Go file. -/
def fileOf? (ignores : IgnoreSet) (directory : String) (entry : String × FileTree) :
    Option SourceFile :=
  match entry.2 with
  | .directory _ => none
  | .file content =>
    let path := Path.join directory entry.1
    if isGoFile entry.1 && !ignores.isMatch path then (SourceFile.ofBytes path content).toOption
    else none

/-- The directories with Go files below a root. -/
def directoriesBelow (ignores : IgnoreSet) (path : String) (root : FileTree) : List Directory :=
  let found := root.directories (fun names => !ignores.isMatch (Path.below path names)) []
  (found.map fun (names, entries) =>
    let directory := Path.below path names
    Directory.mk directory (entries.filterMap (fileOf? ignores directory))).filter fun d =>
      !d.files.isEmpty

/-- The directories below the root at a path. -/
def scanRoot (fs : FileSystem) (ignores : IgnoreSet) (path : String) : Result (List Directory) :=
  match fs.get? path with
  | none => .error (.pathNotFound path)
  | some root => .ok (directoriesBelow ignores path root)

/-- The project below some paths. -/
def scan (fs : FileSystem) (paths ignores : List String) : Result Project := do
  return { directories := (← paths.mapM (scanRoot fs (.ofTexts ignores))).flatten }

end Atlas.Golang
