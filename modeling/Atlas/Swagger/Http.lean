import Atlas.Files.System
import Atlas.Json.Printer
import Atlas.Swagger.Endpoint
import Atlas.Swagger.Sample

/-!
# Request templates

A file of HTTP requests for each tag, one request for each operation. Values that a request needs
come from the description.
-/

namespace Atlas.Swagger

/-- The name of a tag in the name of its file. -/
def fileTag (tag : String) : String :=
  Text.onChars (·.map fun c => if c = ' ' ∨ c = '/' then '-' else c) (Text.toLower tag)

/-- A parameter of the query, with a value or with a place for one. -/
def Parameter.queryPart (p : Parameter) : String :=
  match p.sample.or (p.schema.bind (·.sample)) with
  | some (.text s) => p.name ++ "=" ++ s
  | some d => p.name ++ "=" ++ d.toJson
  | none => p.name ++ "=\x7b\x7b" ++ p.name ++ "\x7d\x7d"

namespace Endpoint

/-- The query of a request. -/
def query (e : Endpoint) : String :=
  String.intercalate "&" ((e.parameters.filter (·.location == "query")).map (·.queryPart))

/-- The value of the body of a request: the first one in JSON, or that of the parameter for it. -/
def bodyValue? (spec : Spec) (e : Endpoint) : Option Data :=
  let sampleOf (s : Option Schema) : Data :=
    match s with
    | some s => spec.sample s 0
    | none => .record []
  match e.operation.body with
  | some content =>
    (content.find? fun (format, _) => Text.contains "json" format).map fun (_, media) =>
      media.sample.getD (sampleOf media.schema)
  | none => (e.parameters.find? (·.location == "body")).map fun p => sampleOf p.schema

/-- The body of a request. -/
def body? (spec : Spec) (e : Endpoint) : Option String :=
  (e.bodyValue? spec).map (·.toPrettyJson)

/-- Whether a caller has to prove who it is. -/
def isSecured (e : Endpoint) : Bool := e.operation.security.all fun s => !s.isEmpty

/-- The lines of a request. -/
def requestLines (spec : Spec) (e : Endpoint) : List String :=
  let title := match e.operation.description.or e.operation.summary with
    | some t => ["### " ++ (Text.lines t).head?.getD ""]
    | none => []
  let query := if e.query = "" then "" else "?" ++ e.query
  let body := match e.body? spec with
    | some b => ["", b]
    | none => []
  title ++
    ["# @name " ++ e.name,
      e.verb.upper ++ " \x7b\x7bbaseUrl\x7d\x7d" ++ e.path ++ query,
      "Content-Type: application/json"] ++
    (if e.isSecured then ["Authorization: Bearer \x7b\x7bauthToken\x7d\x7d"] else []) ++
    body ++ ["", "###", ""]

end Endpoint

/-- The file of a tag. -/
def Spec.requestFile (spec : Spec) (tag : String) (endpoints : List Endpoint) : String :=
  Text.unlines <|
    ["### " ++ tag ++ " Endpoints", "", "@baseUrl = " ++ spec.baseUrl,
      "@authToken = \x7b\x7b$dotenv AUTH_TOKEN\x7d\x7d", ""] ++
      endpoints.flatMap (Endpoint.requestLines spec)

/-- Writes the files of all tags into a directory. Gives their paths. -/
def Spec.writeRequests (spec : Spec) (directory : String) : FileAction (List String) := do
  FileAction.makeDirectory directory
  spec.groups.mapM fun (tag, endpoints) => do
    let path := Path.join directory (fileTag tag ++ ".http")
    FileAction.write path (spec.requestFile tag endpoints)
    return path

end Atlas.Swagger
