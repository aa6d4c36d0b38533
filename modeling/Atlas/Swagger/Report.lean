import Atlas.Graph
import Atlas.Swagger.Endpoint

/-!
# Reports on API descriptions

The tables of the endpoints by tag, and the graph in which tags contain endpoints.
-/

namespace Atlas.Swagger

/-- The row of an endpoint. -/
def Endpoint.row (e : Endpoint) : String :=
  "| " ++ e.verb.upper ++ " | `" ++ e.path ++ "` | " ++ e.name ++ " | " ++
    e.operation.summary.getD "" ++ " |"

/-- The table of a tag. -/
def groupLines (tag : String) (endpoints : List Endpoint) : List String :=
  ["## " ++ tag, "", "| Method | Path | Name | Summary |", "|--------|------|------|---------|"] ++
    endpoints.map (·.row) ++ [""]

/-- The Markdown documentation of an API. -/
def Spec.markdown (s : Spec) : String :=
  let title := if s.info.title = "" then "API" else s.info.title
  let version := if s.info.version = "" then [] else ["Version: " ++ s.info.version, ""]
  Text.unlines <|
    ["# API: " ++ title, ""] ++ version ++ ["Base URL: `" ++ s.baseUrl ++ "`", ""] ++
      s.groups.flatMap fun (tag, endpoints) => groupLines tag endpoints

/-- The entity of a tag. -/
def tagEntity (tag : String) : Entity := { kind := .resource, name := "tag/" ++ tag }

/-- The node of an endpoint. -/
def Endpoint.entityNode (e : Endpoint) : EntityNode :=
  let n : EntityNode :=
    { entity := { kind := .api, name := e.verb.upper ++ " " ++ e.path }
      attributes := [("name", e.name)] }
  n.withDoc e.operation.summary

/-- The graph with an endpoint of a tag. -/
def addEndpoint (tag : Entity) (g : Graph) (e : Endpoint) : Graph :=
  match g.add e.entityNode with
  | .ok (_, g) => g.relate ⟨tag, e.entityNode.entity, .contains, none⟩
  | .error _ => g

/-- The graph of an API. -/
def Spec.graph (s : Spec) : Graph :=
  s.groups.foldl (fun g (tag, endpoints) =>
    endpoints.foldl (addEndpoint (tagEntity tag)) (g.addNew { entity := tagEntity tag }))
    Graph.empty

end Atlas.Swagger
