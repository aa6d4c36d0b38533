import Atlas.Kubernetes.Resource
import Atlas.Text
import Atlas.Identifiers
import Atlas.Diagram.Mermaid

/-!
# Reports on manifests

The flowchart of the resources and their Markdown listing by kind.
-/

namespace Atlas.Kubernetes

/-! ## Diagram -/

/-- The colours of a kind. -/
def kindStyle (kind : String) : String :=
  match kind with
  | "Deployment" => "fill:#afd,stroke:#3a3"
  | "StatefulSet" => "fill:#fad,stroke:#a33"
  | "Service" => "fill:#ddf,stroke:#33a"
  | "Ingress" => "fill:#ffa,stroke:#aa3"
  | "Namespace" => "fill:#eee,stroke:#666"
  | _ => "fill:#fff,stroke:#999"

/-- The identifier of a resource. -/
def identifierOf (ids : Identifiers) (k : ResourceKey) : String × Identifiers :=
  ids.idFor (k.ns ++ "/" ++ k.kind ++ "/" ++ k.name) (Text.toLower k.name)

/-- The nodes of resources. -/
def resourceNodes (ids : Identifiers) : List Resource → List Node × Identifiers
  | [] => ([], ids)
  | r :: rs =>
    let (id, ids) := identifierOf ids r.key
    let (nodes, ids) := resourceNodes ids rs
    ({ shape := .component, id, label := r.kind ++ ": " ++ r.name,
       style := some (kindStyle r.kind) } :: nodes, ids)

/-- The edges of relations. -/
def relationEdges (ids : Identifiers) : List ResourceRelation → List Edge
  | [] => []
  | r :: rs =>
    let (source, ids) := identifierOf ids r.source
    let (target, ids) := identifierOf ids r.target
    { source, arrow := "-->", target } :: relationEdges ids rs

/-- The diagram of manifests. -/
def Manifests.diagram (m : Manifests) : Diagram :=
  let (nodes, ids) := resourceNodes .empty m.resources
  { title := "Kubernetes Infrastructure", nodes, edges := relationEdges ids m.relations }

/-- The flowchart of manifests. -/
def Manifests.mermaid (m : Manifests) : String := Mermaid.flowchart m.diagram "TD"

/-! ## Listing -/

/-- A list with a heading, or nothing where it is empty. -/
def listing (heading : String) (items : List String) : List String :=
  if items.isEmpty then [] else heading :: items ++ [""]

/-- The lines about a workload. -/
def WorkloadSpec.lines (w : WorkloadSpec) : List String :=
  (w.replicas.toList.flatMap fun n => ["Replicas: " ++ toString n, ""]) ++
    listing "Containers:" (w.containers.map fun c => "- " ++ c.name ++ " (`" ++ c.image ++ "`)")

/-- The line of a port of a service. -/
def ServicePort.line (p : ServicePort) : String :=
  "- " ++ p.port ++ (p.targetPort.map (" -> " ++ ·)).getD ""

/-- The lines about the specification of a resource. -/
def Spec.lines : Spec → List String
  | .deployment w => w.lines
  | .statefulSet w => w.lines
  | .service s =>
    (s.type.toList.flatMap fun t => ["Type: " ++ t, ""]) ++
      listing "Ports:" (s.ports.map (·.line))
  | .ingress rules => listing "Hosts:" ((rules.filterMap (·.host)).map ("- " ++ ·))
  | .namespace => []
  | .other => []

/-- The line of a relation. -/
def ResourceRelation.line (r : ResourceRelation) : String :=
  "- " ++ r.source.name ++ " → " ++ r.target.name ++ " (" ++ r.kind.code ++ ")"

/-- The lines about a resource. -/
def Manifests.resourceLines (m : Manifests) (r : Resource) : List String :=
  ["### " ++ r.name, ""] ++
    (r.ns.toList.flatMap fun n => ["Namespace: `" ++ n ++ "`", ""]) ++
    r.spec.lines ++
    listing "Labels:" (r.labels.map fun (k, v) => "- `" ++ k ++ ": " ++ v ++ "`") ++
    listing "Relations:" ((m.relations.filter (·.source = r.key)).map (·.line)) ++
    ["---", ""]

/-- The different kinds of resources, in the order in which they first occur. -/
def kindsOf : List Resource → List String
  | [] => []
  | r :: rs => r.kind :: (kindsOf rs).filter (· ≠ r.kind)

/-- The lines about the resources of a kind. -/
def Manifests.kindLines (m : Manifests) (kind : String) : List String :=
  ["## " ++ kind, ""] ++ (m.resources.filter (·.kind = kind)).flatMap m.resourceLines

/-- The Markdown listing of manifests. -/
def Manifests.markdown (m : Manifests) : String :=
  Text.unlines (["# Kubernetes Infrastructure", ""] ++
    (kindsOf m.resources).flatMap m.kindLines ++ ["## Diagram", "", "```mermaid"]) ++
    m.mermaid ++ "```\n"

end Atlas.Kubernetes
