import Atlas.Analysis.Record
import Atlas.Docker.Report
import Atlas.Golang.ClassDiagram
import Atlas.Golang.Report
import Atlas.Json.Printer
import Atlas.Kubernetes.Report
import Atlas.Laravel.Report
import Atlas.Nextjs.Report
import Atlas.Sql.Report
import Atlas.Swagger.Http
import Atlas.Yaml.Printer

/-!
# Documentation

The text that documents an analysis: in Markdown, or as its record in JSON or YAML. In Markdown the
sections follow one another, their headings one level further down than they have them
(`nestHeadings`); a line of a fenced block is no heading. The documentation goes to a file of the
output directory, and the requests of an API to a directory below it (`write`).
-/

namespace Atlas

namespace Analysis

/-! ## Markdown -/

/-- The section on a Go project: its documentation and its class diagram. -/
def golangSection (s : GoSettings) (p : Golang.Project) : String :=
  p.markdown "." s ++ "\n## Class Diagram\n\n```mermaid\n" ++
    Mermaid.classDiagram p.classDiagram ++ "```\n"

/-- The sections of the documentation. -/
def sections (a : Analysis) : List String :=
  (a.golang.map (golangSection a.settings.golang)).toList ++
    (a.kubernetes.map (·.markdown)).toList ++ a.databases.map (·.markdown) ++
    (a.docker.map (·.markdown)).toList ++ (a.laravel.map (·.markdown)).toList ++
    (a.nextjs.map (·.markdown)).toList ++ (a.swagger.map (·.markdown)).toList

/-- Whether a line opens or closes a fenced block. -/
def isFence (line : String) : Bool := Text.startsWith "```" line

/-- Whether some lines end inside a fenced block. -/
def isFenced (lines : List String) : Bool := lines.countP isFence % 2 == 1

/-- A heading one level further down. Any other line stays as it is. -/
def nested (line : String) : String := if Text.startsWith "#" line then "#" ++ line else line

/-- Lines with their headings one level further down, where `fenced` tells whether the first line
stands in a fenced block. -/
def nestHeadings (fenced : Bool) : List String → List String
  | [] => []
  | l :: ls => (if fenced then l else nested l) :: nestHeadings (fenced != isFence l) ls

/-- The lines on a relation. -/
def relationLine (r : Relation) : String :=
  "- `" ++ r.source.name ++ "` " ++ r.kind.code ++ " `" ++ r.target.name ++ "`" ++
    (match r.label with
      | some l => " (" ++ l ++ ")"
      | none => "")

/-- The part of the documentation that lists the relations, if there are any. -/
def relationList (a : Analysis) : List String :=
  if a.relationCount = 0 then []
  else
    ["## Relations", ""] ++ a.relations.flatMap fun (source, rs) =>
      if rs.isEmpty then [] else ["### " ++ source, ""] ++ rs.map relationLine ++ [""]

/-- The first lines of the documentation. -/
def heading (t : Timing) : String :=
  "# aimap Documentation\n\nGenerated at " ++ t.startedAt ++ "\n\n"

/-- The documentation in Markdown. -/
def markdown (a : Analysis) (t : Timing) : String :=
  let body := a.sections.flatMap fun s => Text.lines s ++ [""]
  heading t ++ Text.unlines (nestHeadings (isFenced (Text.lines (heading t))) body) ++
    Text.unlines a.relationList

/-! ## Formats -/

/-- The documentation in a format. There is none for pages and plain text. -/
def render (a : Analysis) (t : Timing) : OutputFormat → Result String
  | .markdown => .ok (a.markdown t)
  | .json => .ok (a.toData t).toPrettyJson
  | .yaml => .ok (a.toData t).toYaml
  | .html => .error (.unsupportedFormat OutputFormat.html.code)
  | .text => .error (.unsupportedFormat OutputFormat.text.code)

/-! ## Writing -/

/-- Where the documentation is written in a format. -/
def documentPath (s : OutputSettings) (f : OutputFormat) : String :=
  Path.join s.path ("documentation." ++ f.extension)

/-- Writes the documentation, and the requests of the API that was described. Gives the path of the
documentation. -/
def write (a : Analysis) (t : Timing) : FileAction String := do
  let format ← FileAction.ofResult a.settings.outputFormat
  let text ← FileAction.ofResult (a.render t format)
  let output := a.settings.output
  FileAction.makeDirectory output.path
  let path := documentPath output format
  FileAction.write path text
  if let some spec := a.swagger then
    let _ ← spec.writeRequests (Path.join output.path a.settings.swagger.output)
  return path

end Analysis

end Atlas
