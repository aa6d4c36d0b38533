import Atlas.Kubernetes.Resource
import Atlas.Graph

/-!
# Relations between resources and their graph

A service selects the workloads of its namespace whose labels its selector asks for, and an ingress
routes to the services of its namespace, declared or not. In the graph every resource is an entity of
its namespace. The name of one whose kind is no kind of entity carries its kind.
-/

namespace Atlas.Kubernetes

/-! ## Relations -/

/-- Whether labels have everything that a selector asks for. An empty selector asks for nothing and
selects nothing. -/
def selects (selector labels : Labels) : Bool :=
  !selector.isEmpty && selector.all fun (k, v) => labels.lookup k == some v

/-- Whether the service `s`, with this selector, selects a resource. -/
def selectsResource (s : Resource) (selector : Labels) (r : Resource) : Bool :=
  r.effectiveNamespace = s.effectiveNamespace && r.spec.templateLabels?.any (selects selector)

/-- The key of a service to which an ingress routes. -/
def backendKey (r : Resource) (p : IngressPath) : ResourceKey :=
  ⟨r.effectiveNamespace, "Service", p.service⟩

/-- The relations that start at a resource. -/
def relationsOf (rs : List Resource) (r : Resource) : List ResourceRelation :=
  match r.spec with
  | .service s =>
    (rs.filter (selectsResource r s.selector)).map fun w => ⟨r.key, w.key, .selects⟩
  | .ingress rules =>
    (rules.flatMap (·.paths)).map fun p => ⟨r.key, backendKey r p, .routes⟩
  | _ => []

/-- The relations between resources. -/
def inferred (rs : List Resource) : List ResourceRelation := rs.flatMap (relationsOf rs)

/-- Resources with their relations. -/
def Manifests.ofResources (rs : List Resource) : Manifests := ⟨rs, inferred rs⟩

/-! ## Entities -/

/-- The kind of the entity of a resource. -/
def entityKind (kind : String) : EntityKind :=
  match kind with
  | "Deployment" => .deployment
  | "StatefulSet" => .statefulSet
  | "Service" => .service
  | "Ingress" => .ingress
  | "Namespace" => .namespace
  | _ => .resource

/-- The entity of a resource. -/
def ResourceKey.entity (k : ResourceKey) : Entity :=
  let kind := entityKind k.kind
  { kind
    name := if kind = .resource then k.kind ++ "/" ++ k.name else k.name
    scope := some k.ns }

/-- The node of a resource. -/
def Resource.entityNode (r : Resource) : EntityNode :=
  { entity := r.key.entity
    attributes := ("source", r.source) :: r.labels.map fun (k, v) => ("label." ++ k, v) }

/-- A relation between the entities of two resources. -/
def ResourceRelation.entityRelation (r : ResourceRelation) : Relation :=
  ⟨r.source.entity, r.target.entity, r.kind, none⟩

/-- The graph of manifests. -/
def Manifests.graph (m : Manifests) : Graph :=
  (m.relations.map (·.entityRelation)).foldl Graph.relate
    ((m.resources.map (·.entityNode)).foldl Graph.addNew Graph.empty)

end Atlas.Kubernetes
