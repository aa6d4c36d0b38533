import Atlas.Error
import Atlas.Files.Path
import Atlas.Files.Tree

/-!
# File systems

A file tree with a working directory, as a run of the program sees it. What cannot be read or
written has a `FileFault`, with the sentence that is shown for it. `locate` follows a path name by
name; `readText` and `readLossy` read files; `makeDirectory` and `write` change the tree. A
`FileAction` does several of these in turn: where one of them fails, what was written before it
stays.
-/

namespace Atlas

/-! ## Faults -/

/-- Why a file cannot be read or written. -/
inductive FileFault where
  /-- Nothing stands at the path, or on the way to it. -/
  | missing
  /-- A directory is to be made where a file stands. -/
  | taken
  /-- The way leads on from a file. -/
  | notDirectory
  /-- A directory is to be read or written as a file. -/
  | isDirectory
  /-- A name has more bytes than a file system keeps. -/
  | longName
  /-- The path contains the character that ends one. -/
  | nul
  /-- A file that is to be read as a text is no UTF-8. -/
  | notUtf8
  deriving DecidableEq, Repr

namespace FileFault

/-- The sentence shown for a fault. -/
def message : FileFault → String
  | missing => "No such file or directory (os error 2)"
  | taken => "File exists (os error 17)"
  | notDirectory => "Not a directory (os error 20)"
  | isDirectory => "Is a directory (os error 21)"
  | longName => "File name too long (os error 36)"
  | nul => "file name contained an unexpected NUL byte"
  | notUtf8 => "stream did not contain valid UTF-8"

/-- The fault as a cause of failure. -/
def toError (f : FileFault) : Error := .io f.message

end FileFault

/-! ## The tree that a run sees -/

/-- A file tree and the names on the way to the working directory. -/
structure FileSystem where
  root : FileTree
  workingDirectory : List String

namespace FileSystem

/-! ## Following paths -/

/-- How many bytes a name has at most. -/
def maxNameSize : Nat := 255

/-- One part further from the place `here`, whose names come last first. Only a directory leads
on. -/
def step (root : FileTree) (here : List String) (part : String) :
    Except FileFault (List String) :=
  match root.at? here.reverse with
  | none => .error .missing
  | some (.file _) => .error .notDirectory
  | some (.directory _) =>
    if part = "" ∨ part = "." then .ok here
    else if part = ".." then .ok here.tail
    else if maxNameSize < part.utf8ByteSize then .error .longName
    else .ok (part :: here)

/-- Where the parts of a path lead from the place `here`; the last name need not exist. -/
def follow (root : FileTree) (here parts : List String) : Except FileFault (List String) :=
  parts.foldlM (step root) here

/-- Where a path starts: the names on the way there, the last one first. -/
def start (fs : FileSystem) (path : String) : List String :=
  if Path.isAbsolute path then [] else fs.workingDirectory.reverse

/-- What keeps a text from being a path. -/
def pathFault? (path : String) : Option FileFault :=
  if path = "" then some .missing
  else if path.toList.contains '\x00' then some .nul
  else none

/-- The names on the way from the root to a path at which something stands, and what stands there. -/
def locate (fs : FileSystem) (path : String) : Except FileFault (List String × FileTree) := do
  if let some fault := pathFault? path then throw fault
  let here ← follow fs.root (fs.start path) (Text.splitOn '/' path)
  match fs.root.at? here.reverse with
  | some t => return (here.reverse, t)
  | none => throw .missing

/-- What stands at a path. -/
def get? (fs : FileSystem) (path : String) : Option FileTree := (fs.locate path).toOption.map (·.2)

/-- Whether anything stands at a path. -/
def has (fs : FileSystem) (path : String) : Bool := (fs.get? path).isSome

/-- The name under which a project is shown: the last name of the way to its root. -/
def projectName (fs : FileSystem) (path : String) : String :=
  match fs.locate path with
  | .ok (names, _) => names.getLast?.getD path
  | .error _ => (Path.fileName? path).getD path

/-! ## Reading -/

/-- The bytes of a file. -/
def read (fs : FileSystem) (path : String) : Except FileFault (List UInt8) := do
  match (← fs.locate path).2 with
  | .file content => return content
  | .directory _ => throw .isDirectory

/-- The text of a file, which has to be UTF-8. -/
def readText (fs : FileSystem) (path : String) : Except FileFault String := do
  match Utf8.decode? (← fs.read path) with
  | some s => return s
  | none => throw .notUtf8

/-- The text of a file, with replacement characters for what is no UTF-8. -/
def readLossy (fs : FileSystem) (path : String) : Except FileFault String := do
  return Utf8.decodeLossy (← fs.read path)

/-! ## Writing -/

/-- The file system with `t` at the end of a way whose last name comes first. -/
def place (fs : FileSystem) (t : FileTree) (here : List String) : Except FileFault FileSystem :=
  match FileTree.insert? t here.reverse fs.root with
  | some root => .ok { fs with root }
  | none => .error .notDirectory

/-- Goes along the parts of a path from the place `here`, and makes the directories that are
missing. A directory that is to be entered once more by a last dot has to be there already. -/
def makeAlong : List String → List String → FileSystem → Except FileFault FileSystem
  | _, [], fs => .ok fs
  | here, part :: parts, fs =>
    if part = "" ∨ part = "." then makeAlong here parts fs
    else if part = ".." then makeAlong here.tail parts fs
    else
      let after := parts.filter (· ≠ "")
      match fs.root.at? (part :: here).reverse with
      | some (.directory _) => makeAlong (part :: here) parts fs
      | some (.file _) => .error (if after = [] then .taken else .notDirectory)
      | none =>
        if maxNameSize < part.utf8ByteSize then .error .longName
        else if after ≠ [] ∧ after.all (· = ".") then .error .missing
        else do makeAlong (part :: here) parts (← fs.place .emptyDirectory (part :: here))

/-- Makes a directory and those on the way to it. The empty path asks for none. -/
def makeDirectory (fs : FileSystem) (path : String) : Except FileFault FileSystem :=
  if path = "" then .ok fs
  else
    match pathFault? path with
    | some fault => .error fault
    | none => makeAlong (fs.start path) (Text.splitOn '/' path) fs

/-- Writes a file into a directory that exists. -/
def write (fs : FileSystem) (path text : String) : Except FileFault FileSystem := do
  if let some fault := pathFault? path then throw fault
  match (Text.splitOn '/' path).reverse.dropWhile (· = "") with
  | [] => throw .isDirectory
  | name :: before =>
    let here ← follow fs.root (fs.start path) before.reverse
    let there ← step fs.root here name
    if Text.endsWith "/" path ∨ name = "." ∨ name = ".." then throw .isDirectory
    match fs.root.at? there.reverse with
    | some (.directory _) => throw .isDirectory
    | _ => fs.place (.ofText text) there

end FileSystem

/-! ## Actions -/

/-- What reads and changes files and may fail. What it has changed before it fails stays changed. -/
abbrev FileAction := ExceptT Error (StateM FileSystem)

namespace FileAction

/-- The outcome of an action, and the file system after it. -/
def runOn {α : Type} (a : FileAction α) (fs : FileSystem) : Result α × FileSystem :=
  Id.run (StateT.run (ExceptT.run a) fs)

/-- A result as an action that changes nothing. -/
def ofResult {α : Type} : Result α → FileAction α
  | .ok a => pure a
  | .error e => throw e

/-- What is read from the file system. -/
def reading {α : Type} (f : FileSystem → Except FileFault α) : FileAction α := do
  match f (← get) with
  | .ok a => return a
  | .error fault => throw fault.toError

/-- Changes the file system, unless the change fails. -/
def changing (f : FileSystem → Except FileFault FileSystem) : FileAction Unit := do
  set (← reading f)

/-- Makes a directory and those on the way to it. -/
def makeDirectory (path : String) : FileAction Unit := changing (·.makeDirectory path)

/-- Writes a file into a directory that exists. -/
def write (path text : String) : FileAction Unit := changing (·.write path text)

end FileAction

end Atlas
