import Atlas.Error
import Atlas.Files.System
import Atlas.Json.Typed
import Atlas.Swagger.Spec

/-!
# Reading API descriptions

A description is JSON. It has to say in which of two formats it is.
-/

namespace Atlas.Swagger

open Json Json.Typed

/-- Reads a schema, where `inner` reads one with one less level left, and `nested` one with two. -/
def schemaFields? (depth : Nat) (inner : Tree → Option Schema)
    (properties : Tree → Option (List (String × Schema))) (t : Tree) : Option Schema := do
  let fs ← fields ["type", "format", "properties", "items", "$ref", "example", "enum"] t
  return .mk (← field fs depth "type" none (optional text))
    (← field fs depth "format" none (optional text))
    (← field fs depth "properties" [] fun _ => properties)
    (← field fs depth "items" none (optional fun _ => inner))
    (← field fs depth "$ref" none (optional text))
    (← field fs depth "example" none (optional data))
    (← field fs depth "enum" [] (list data))

/-- Reads a schema. -/
def schema? : Typed Schema
  | 0, _ => none
  | 1, t => schemaFields? 0 (fun _ => none) (fun _ => none) t
  | depth + 2, t =>
    schemaFields? (depth + 1) (schema? (depth + 1))
      (record (fun _ => schema? depth) (depth + 1)) t

/-- Reads what a description says of itself. -/
def info? : Typed Info
  | 0, _ => none
  | depth + 1, t => do
    let fs ← fields ["title", "version", "description"] t
    return {
      title := ← field fs depth "title" "" text
      version := ← field fs depth "version" "" text
      description := ← field fs depth "description" none (optional text) }

/-- Reads a place where the API is served. -/
def server? : Typed Server
  | 0, _ => none
  | depth + 1, t => do
    let fs ← fields ["url", "description"] t
    return {
      url := ← required fs depth "url" text
      description := ← field fs depth "description" none (optional text) }

/-- Reads a parameter. -/
def parameter? : Typed Parameter
  | 0, _ => none
  | depth + 1, t => do
    let fs ← fields ["name", "in", "required", "description", "schema", "x-example"] t
    return {
      name := ← required fs depth "name" text
      location := ← required fs depth "in" text
      required := ← field fs depth "required" false bool
      description := ← field fs depth "description" none (optional text)
      schema := ← field fs depth "schema" none (optional schema?)
      sample := ← field fs depth "x-example" none (optional data) }

/-- Reads a body in one format. -/
def mediaType? : Typed MediaType
  | 0, _ => none
  | depth + 1, t => do
    let fs ← fields ["schema", "example"] t
    return {
      schema := ← field fs depth "schema" none (optional schema?)
      sample := ← field fs depth "example" none (optional data) }

/-- Reads a body. -/
def body? : Typed (List (String × MediaType))
  | 0, _ => none
  | depth + 1, t => do
    let fs ← fields ["content"] t
    field fs depth "content" [] (record mediaType?)

/-- Reads an operation. -/
def operation? : Typed Operation
  | 0, _ => none
  | depth + 1, t => do
    let fs ← fields
      ["summary", "description", "operationId", "tags", "parameters", "requestBody", "security"] t
    return {
      summary := ← field fs depth "summary" none (optional text)
      description := ← field fs depth "description" none (optional text)
      id := ← field fs depth "operationId" none (optional text)
      tags := ← field fs depth "tags" [] (list text)
      parameters := ← field fs depth "parameters" [] (list parameter?)
      body := ← field fs depth "requestBody" none (optional body?)
      security := ← field fs depth "security" none (optional (list data)) }

/-- Reads a path. -/
def pathItem? : Typed PathItem
  | 0, _ => none
  | depth + 1, t => do
    let fs ← fields (Verb.all.map (·.word) ++ ["parameters"]) t
    let operations ← Verb.all.mapM fun verb => do
      return (verb, ← field fs depth verb.word none (optional operation?))
    return {
      operation := fun verb => (operations.lookup verb).join
      parameters := ← field fs depth "parameters" [] (list parameter?) }

/-- Reads the schemas of the newer format. -/
def components? : Typed (List (String × Schema))
  | 0, _ => none
  | depth + 1, t => do
    let fs ← fields ["schemas"] t
    field fs depth "schemas" [] (record schema?)

/-- Reads a description. -/
def spec? : Typed Spec
  | 0, _ => none
  | depth + 1, t => do
    let fs ← fields ["swagger", "openapi", "info", "host", "basePath", "servers", "paths",
      "components", "definitions"] t
    return {
      swagger := ← field fs depth "swagger" none (optional text)
      openapi := ← field fs depth "openapi" none (optional text)
      info := ← field fs depth "info" {} info?
      host := ← field fs depth "host" none (optional text)
      basePath := ← field fs depth "basePath" none (optional text)
      servers := ← field fs depth "servers" [] (list server?)
      paths := ← field fs depth "paths" [] (record pathItem?)
      components := ← field fs depth "components" none (optional components?)
      definitions := ← field fs depth "definitions" [] (record schema?) }

/-- The description in a text. -/
def Spec.read (s : String) : Result Spec :=
  match (tree? s).bind (spec? maxDepth) with
  | none => .error (.json "no JSON, or not the description of an API")
  | some spec =>
    if spec.swagger.isNone && spec.openapi.isNone then
      .error (.invalidSpec "document has neither a `swagger` nor an `openapi` field")
    else .ok spec

/-- The description in a file. -/
def load (fs : FileSystem) (path : String) : Result Spec :=
  match fs.readLossy path with
  | .error _ => .error (.pathNotFound path)
  | .ok text =>
    match Spec.read text with
    | .error (.json detail) => .error (.parse path detail)
    | r => r

end Atlas.Swagger
