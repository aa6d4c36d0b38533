import Atlas.Chars.Utf8

/-!
# File trees

A directory tree in memory: files with their bytes, and directories whose entries stand in the
order of their names. `FileTree.walk` lists the files below a directory in that order, leaving out
what a filter says.
-/

namespace Atlas

/-- A file or a directory. -/
inductive FileTree where
  | file (content : List UInt8)
  | directory (entries : List (String × FileTree))
  deriving Inhabited

namespace FileTree

/-- A directory without entries. -/
def emptyDirectory : FileTree := directory []

/-- A file that holds a text. -/
def ofText (s : String) : FileTree := file (Utf8.encode s.toList)

/-- Whether it is a directory. -/
def isDirectory : FileTree → Bool
  | directory _ => true
  | file _ => false

/-- The entry of a name. -/
def entry? : FileTree → String → Option FileTree
  | directory es, name => es.lookup name
  | file _, _ => none

/-- What stands at the end of a path of names. -/
def at? (t : FileTree) : List String → Option FileTree
  | [] => some t
  | name :: path =>
    match t.entry? name with
    | some e => e.at? path
    | none => none

/-- The entries with one more, in the order of names; it replaces one of its name. -/
def insertEntry (name : String) (t : FileTree) :
    List (String × FileTree) → List (String × FileTree)
  | [] => [(name, t)]
  | (n, e) :: r =>
    if name < n then (name, t) :: (n, e) :: r
    else if name = n then (name, t) :: r
    else (n, e) :: insertEntry name t r

/-- The tree with `new` at the end of a path of names. Directories on the way are made; there is
none where a file stands in the way. -/
def insert? (new : FileTree) : List String → FileTree → Option FileTree
  | [], _ => some new
  | _ :: _, file _ => none
  | name :: path, directory es =>
    match insert? new path ((es.lookup name).getD emptyDirectory) with
    | some e => some (directory (insertEntry name e es))
    | none => none

/-- A file met on a walk: the names on the way to it from the start, and its bytes. -/
structure Found where
  path : List String
  content : List UInt8

mutual

/-- The files of a tree that was reached by the names of `path`. The filter sees each path, and
whether a directory stands there; what it refuses is left out with all below it. -/
def walk (keep : List String → Bool → Bool) (path : List String) : FileTree → List Found
  | file content => if keep path false then [⟨path, content⟩] else []
  | directory es => if keep path true then walkEntries keep path es else []

/-- The files of the entries of a directory that was reached by the names of `path`. -/
def walkEntries (keep : List String → Bool → Bool) (path : List String) :
    List (String × FileTree) → List Found
  | [] => []
  | (name, e) :: es => walk keep (path ++ [name]) e ++ walkEntries keep path es

end

mutual

/-- The directories of a tree that was reached by the names of `path`, with their entries. What the
filter refuses is left out with all below it. -/
def directories (keep : List String → Bool) (path : List String) :
    FileTree → List (List String × List (String × FileTree))
  | file _ => []
  | directory es => if keep path then (path, es) :: directoriesOf keep path es else []

/-- The directories among the entries of a directory that was reached by the names of `path`. -/
def directoriesOf (keep : List String → Bool) (path : List String) :
    List (String × FileTree) → List (List String × List (String × FileTree))
  | [] => []
  | (name, e) :: es => directories keep (path ++ [name]) e ++ directoriesOf keep path es

end

/-- Every file of a tree. -/
def allFiles (t : FileTree) : List Found := t.walk (fun _ _ => true) []

/-- Directories in which a project keeps no sources of its own. -/
def excludedDirectories : List String :=
  [".git", "node_modules", "vendor", "dist", "build", "target", ".next", ".idea", ".vscode"]

/-- Whether a project scan looks into a directory of this name. -/
def isScanned (name : String) : Bool :=
  !excludedDirectories.contains name && name.toList.head? != some '.'

/-- The files of a project: those below its root that are in no excluded or hidden directory. -/
def sourceFiles (t : FileTree) : List Found :=
  t.walk (fun path isDirectory =>
    match path.getLast? with
    | some name => !isDirectory || isScanned name
    | none => true) []

end FileTree

end Atlas
