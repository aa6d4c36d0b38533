import Atlas.Analysis.Moment
import Atlas.Command.Run
import Std.Time.DateTime

/-!
# The program

Reads what a command needs from the disk, runs the command on it, and writes what it has changed.
-/

namespace Atlas.Disk

/-- The tree at a place, unless nothing can be read there. A link in a directory is left out. -/
partial def load (place : IO.FS.DirEntry) : IO (Option FileTree) := do
  try
    match (← place.path.metadata).type with
    | .file => return some (.file (← IO.FS.readBinFile place.path).toList)
    | .dir =>
      let mut entries := []
      for e in ← place.path.readDir do
        match (← e.path.symlinkMetadata).type with
        | .symlink => pure ()
        | _ => if let some t ← load e then entries := FileTree.insertEntry e.fileName t entries
      return some (.directory entries)
    | _ => return none
  catch _ => return none

/-- The file system with what the disk has along a way below `here` and at its end. -/
def loadAlong (fs : FileSystem) (here : List String) : List String → IO FileSystem
  | [] => return fs
  | name :: names => do
    let there := here ++ [name]
    let place : IO.FS.DirEntry := ⟨"/" ++ String.intercalate "/" here, name⟩
    let isDirectory ← place.path.isDir
    let tree ← if isDirectory && !names.isEmpty then
        pure (some ((fs.root.at? there).getD .emptyDirectory))
      else load place
    match tree with
    | none => return fs
    | some t =>
      let root := (FileTree.insert? t there fs.root).getD fs.root
      if isDirectory then loadAlong { fs with root } there names else return { fs with root }

/-- The file system with what the disk has at some paths. -/
def loadPaths (fs : FileSystem) (paths : List String) : IO FileSystem :=
  paths.foldlM (fun fs path =>
    let directory := "/" ++ String.intercalate "/" fs.workingDirectory
    loadAlong fs [] (Path.cleanComponents (Path.join directory path))) fs

/-- The working directory, nothing of it read yet. -/
def current : IO FileSystem := do
  let names := Path.components (← IO.currentDir).toString
  return ⟨(FileTree.insert? .emptyDirectory names .emptyDirectory).getD .emptyDirectory, names⟩

/-- The directories of a tree by their names. -/
def directories (t : FileTree) : List (List String) := (t.directories (fun _ => true) []).map (·.1)

/-- Writes what has changed from one file system to another. -/
def save (before after : FileSystem) : IO Unit := do
  for names in directories after.root do
    if (before.root.at? names).isNone then
      IO.FS.createDirAll ("/" ++ String.intercalate "/" names)
  for f in after.root.allFiles do
    let isKept := match before.root.at? f.path with
      | some (.file content) => content == f.content
      | _ => false
    unless isKept do
      IO.FS.writeBinFile ("/" ++ String.intercalate "/" f.path) ⟨f.content.toArray⟩

end Atlas.Disk

namespace Atlas

/-- The paths that a command reads or writes. -/
def Command.paths : Command → List String
  | .init => [Settings.fileName]
  | .generate path _ _ => [path]
  | .version => []
  | .swagger file output => [file, output]
  | .docker path output => [path, output]
  | .laravel path output => [path, output]
  | .nextjs path output => [path, output]
  | .postgres _ output => [output]
  | .mysql _ _ output => [output]

/-- The paths that an analysis reads or writes. -/
def Settings.paths (s : Settings) : List String :=
  (s.phases.flatMap fun
    | .golang => s.golang.paths
    | .kubernetes => s.kubernetes.paths
    | .databases => []
    | .docker => [s.docker.path]
    | .laravel => [s.laravel.path]
    | .nextjs => [s.nextjs.path]
    | .swagger => [s.swagger.file, Path.join s.output.path s.swagger.output]) ++ [s.output.path]

/-- The moment that the clock of the system shows. -/
def Moment.now : IO Moment := do
  return ⟨(← Std.Time.Timestamp.now).toNanosecondsSinceUnixEpoch.val.toNat⟩

/-- Nanoseconds in a unit of so many of them, given as a power of ten. -/
def inUnit (nanoseconds : Nat) (power : Int) : Number :=
  .float (.ofDecimal false nanoseconds (-power))

/-- Analyses phase by phase, and times the phases. -/
def analyseTimed (w : World) (s : Settings) : IO (Analysis × Timing) := do
  let startedAt := (← Moment.now).text
  let start ← IO.monoNanosNow
  let mut a : Analysis := { settings := s }
  let mut spent : List (Phase × Nat) := []
  for p in s.phases do
    let before ← IO.monoNanosNow
    a ← IO.lazyPure fun _ => a.step w p
    spent := (p, (← IO.monoNanosNow) - before) :: spent
  let total := (← IO.monoNanosNow) - start
  let seconds := spent.map fun (p, n) => (p, inUnit n 9)
  return (a, ⟨startedAt, fun p => (seconds.lookup p).getD (.int 0), inUnit total 6⟩)

/-- Documents what a settings file asks for. -/
def generate (verbose : Bool) (path : String) (format output : Option String) : IO Outcome := do
  let fs ← Disk.loadPaths (← Disk.current) [path]
  match (Command.loadSettings path format output).runOn fs with
  | (.error e, _) => return .ofResult (.error e)
  | (.ok s, _) =>
    let fs ← Disk.loadPaths fs s.paths
    let (a, t) ← analyseTimed ⟨fs, .unreachable⟩ s
    let (r, after) := (Command.document a t verbose).runOn fs
    Disk.save fs after
    return .ofResult r

/-- Runs the program on the disk. -/
def runOnDisk (arguments : List String) : IO Outcome := do
  match Command.request arguments with
  | .ok (.run verbose (.generate path format output)) => generate verbose path format output
  | r =>
    let paths := match r with
      | .ok (.run _ command) => command.paths
      | _ => []
    let fs ← Disk.loadPaths (← Disk.current) paths
    let untimed : Timing := ⟨"", fun _ => .int 0, .int 0⟩
    let (outcome, after) := execute .unreachable untimed arguments fs
    Disk.save fs after
    return outcome

end Atlas

/-- Runs the program with the arguments given. -/
def main (arguments : List String) : IO UInt32 := do
  let outcome ← Atlas.runOnDisk arguments
  outcome.shown.forM fun line => IO.println line
  if let some complaint := outcome.complaint then IO.eprintln complaint
  return outcome.exitCode
