import Atlas.Graph

/-!
# Kubernetes resources

What is documented of the resources that manifests declare. A resource is known by its namespace,
its kind and its name (`Resource.key`).
-/

namespace Atlas.Kubernetes

/-- Names with values, in the order of the names, each name once. -/
abbrev Labels := List (String × String)

structure ContainerSpec where
  name : String
  image : String
  ports : List Nat
  deriving DecidableEq, Repr

/-- What a deployment or a stateful set runs. -/
structure WorkloadSpec where
  replicas : Option Nat := none
  selector : Labels := []
  /-- The labels of the pods, which the selectors of services look at. -/
  templateLabels : Labels := []
  containers : List ContainerSpec := []
  deriving DecidableEq, Repr

structure ServicePort where
  name : Option String
  port : String
  targetPort : Option String
  protocol : Option String
  deriving DecidableEq, Repr

structure ServiceSpec where
  type : Option String := none
  selector : Labels := []
  ports : List ServicePort := []
  deriving DecidableEq, Repr

/-- A path that is routed to a service. -/
structure IngressPath where
  path : String
  service : String
  port : Option String
  deriving DecidableEq, Repr

structure IngressRule where
  host : Option String
  paths : List IngressPath
  deriving DecidableEq, Repr

/-- What is particular to the kind of a resource. -/
inductive Spec where
  | deployment (workload : WorkloadSpec)
  | statefulSet (workload : WorkloadSpec)
  | service (spec : ServiceSpec)
  | ingress (rules : List IngressRule)
  | namespace
  | other
  deriving DecidableEq, Repr

/-- The labels that the selector of a service is compared with. -/
def Spec.templateLabels? : Spec → Option Labels
  | .deployment w => some w.templateLabels
  | .statefulSet w => some w.templateLabels
  | _ => none

/-- What a resource is known by. -/
structure ResourceKey where
  ns : String
  kind : String
  name : String
  deriving DecidableEq, Repr

structure Resource where
  name : String
  kind : String
  ns : Option String
  labels : Labels
  spec : Spec
  /-- The manifest it comes from, and the place of its document there. -/
  source : String
  document : Nat
  deriving DecidableEq, Repr

namespace Resource

/-- The namespace of a resource that declares none. -/
def defaultNamespace : String := "default"

/-- The namespace a resource is in. -/
def effectiveNamespace (r : Resource) : String := r.ns.getD defaultNamespace

/-- What a resource is known by. -/
def key (r : Resource) : ResourceKey := ⟨r.effectiveNamespace, r.kind, r.name⟩

end Resource

/-- A relation between two resources. -/
structure ResourceRelation where
  source : ResourceKey
  target : ResourceKey
  kind : RelationKind
  deriving DecidableEq, Repr

/-- Resources, and the relations between them. -/
structure Manifests where
  resources : List Resource
  relations : List ResourceRelation
  deriving DecidableEq, Repr

end Atlas.Kubernetes
