import Atlas.Analysis.Document
import Atlas.Command.Arguments
import Atlas.Command.Summary

/-!
# Running commands

What each command does to the files, and the lines that it shows. `Command.run` is a whole command;
`execute` is the program with its arguments, its exit code and what it says on failure.
-/

namespace Atlas

namespace Command

/-! ## Documentation -/

/-- The settings of a file, with the format and the directory that are asked for instead of its
own. -/
def loadSettings (path : String) (format output : Option String) : FileAction Settings := do
  let text ← FileAction.reading (·.readText path)
  FileAction.ofResult do
    let s ← Settings.read text
    let s := { s with output.format := format.getD s.output.format }
    let s := { s with output.path := (output.map Path.clean).getD s.output.path }
    s.validate

/-- Writes the documentation of an analysis. Gives the lines to show. -/
def document (a : Analysis) (t : Timing) (verbose : Bool) : FileAction (List String) := do
  let path ← a.write t
  return a.summary t verbose ++ ["", "  Output written to: " ++ path]

/-- Documents what a settings file asks for. -/
def runGenerate (servers : Servers) (t : Timing) (verbose : Bool) (path : String)
    (format output : Option String) : FileAction (List String) := do
  let s ← loadSettings path format output
  document (analyse ⟨← get, servers⟩ s) t verbose

/-! ## Diagrams -/

/-- Draws a diagram into a file of a directory. -/
def draw (output name : String) (diagram : FileSystem → Result String) :
    FileAction (List String) := do
  let text ← FileAction.ofResult (diagram (← get))
  FileAction.makeDirectory output
  let path := Path.join output name
  FileAction.write path text
  return ["✓ PlantUML diagram written to " ++ path]

/-- Writes the requests of an API. -/
def writeRequests (file output : String) : FileAction (List String) := do
  let spec ← FileAction.ofResult (Swagger.load (← get) file)
  let paths ← spec.writeRequests output
  return ["✓ " ++ toString paths.length ++ " .http files written to " ++ output]

/-- Runs a command. Gives the lines that it shows. -/
def run (servers : Servers) (t : Timing) (verbose : Bool) : Command → FileAction (List String)
  | init => do
    Settings.writeTemplate Settings.fileName
    return ["✓ Configuration file created at " ++ Settings.fileName]
  | generate path format output => runGenerate servers t verbose path format output
  | version => return [programName ++ " version " ++ programVersion]
  | swagger file output => writeRequests file output
  | docker path output =>
    draw output "docker.puml" fun fs => return (← Docker.scan fs path).plantUml
  | laravel path output =>
    draw output "laravel.puml" fun fs => return (← Laravel.scan fs path).plantUml
  | nextjs path output =>
    draw output "nextjs.puml" fun fs => return (← Nextjs.scan fs path).plantUml
  | postgres address output =>
    draw output "database.puml" fun _ => return (← servers.postgresDatabase address).plantUml
  | mysql address database output =>
    draw output "database.puml" fun _ =>
      return (← servers.mysqlDatabase address database).plantUml

end Command

/-! ## The program -/

/-- What a run of the program leaves behind: the lines it shows, what it says on failure, and its
exit code. -/
structure Outcome where
  shown : List String := []
  complaint : Option String := none
  exitCode : UInt32 := 0

/-- The outcome of a command. -/
def Outcome.ofResult : Result (List String) → Outcome
  | .ok lines => { shown := lines }
  | .error e => { complaint := some ("Error: " ++ e.message), exitCode := 1 }

/-- Runs the program with arguments on a file system. -/
def execute (servers : Servers) (t : Timing) (arguments : List String) (fs : FileSystem) :
    Outcome × FileSystem :=
  match Command.request arguments with
  | .error e => ({ complaint := some ("error: " ++ e.message), exitCode := 2 }, fs)
  | .ok .help => ({ shown := Command.usage }, fs)
  | .ok .version => ({ shown := [Command.programName ++ " " ++ Command.programVersion] }, fs)
  | .ok (.run verbose command) =>
    let (r, fs) := (command.run servers t verbose).runOn fs
    (.ofResult r, fs)

end Atlas
