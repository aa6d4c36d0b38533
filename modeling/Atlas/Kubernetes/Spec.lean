import Atlas.Kubernetes.Resource
import Atlas.Data.Basic
import Atlas.Yaml.Typed

/-!
# Reading resource specifications

The specification of a resource is read according to its kind (`Spec.ofValue?`). Fields that are
not documented are passed over, and kinds that are not known have no specification of their own.
-/

namespace Atlas.Kubernetes

open Yaml (Value)
open Yaml.Typed

attribute [local instance (high)] instPowNat

/-- Labels: a mapping of texts to texts. -/
def labels : Typed Labels := fun v => do
  return Data.sortedMembers (← (← entries v).mapM fun (k, v) => do return (k, ← text v))

/-- A text, or an integer as a text. -/
def textOrInteger : Typed String := fun v =>
  match v with
  | .text s => some s
  | .number (.int n) => if n < 2 ^ (63 : Nat) then some (toString n) else none
  | _ => none

/-! ## Workloads -/

/-- A container and the ports it listens at. -/
def containerSpec : Typed ContainerSpec := fun v => do
  let fs ← fields ["name", "image", "ports"] v
  return {
    name := ← field fs "name" "" text
    image := ← field fs "image" "" text
    ports := ← field fs "ports" [] (list fun p => do
      required (← fields ["containerPort"] p) "containerPort" natural) }

/-- The labels that a selector asks for. -/
def selector : Typed Labels := fun v => do
  field (← fields ["matchLabels"] v) "matchLabels" [] labels

/-- The labels and the containers of a pod template. -/
def template : Typed (Labels × List ContainerSpec) := fun v => do
  let fs ← fields ["metadata", "spec"] v
  let podLabels ← field fs "metadata" [] fun m => do field (← fields ["labels"] m) "labels" [] labels
  let containers ← field fs "spec" [] fun s => do
    field (← fields ["containers"] s) "containers" [] (list containerSpec)
  return (podLabels, containers)

/-- What a workload runs. -/
def workloadSpec : Typed WorkloadSpec := fun v => do
  let fs ← fields ["replicas", "selector", "template"] v
  let replicas ← field fs "replicas" none (optional natural)
  let selector ← field fs "selector" [] selector
  let (templateLabels, containers) ← field fs "template" ([], []) template
  return { replicas, selector, templateLabels, containers }

/-! ## Services -/

/-- A port of a service. -/
def servicePort : Typed ServicePort := fun v => do
  let fs ← fields ["name", "port", "targetPort", "protocol"] v
  return {
    name := ← field fs "name" none (optional text)
    port := ← required fs "port" textOrInteger
    targetPort := ← field fs "targetPort" none (optional textOrInteger)
    protocol := ← field fs "protocol" none (optional text) }

/-- A service. -/
def serviceSpec : Typed ServiceSpec := fun v => do
  let fs ← fields ["type", "selector", "ports"] v
  return {
    type := ← field fs "type" none (optional text)
    selector := ← field fs "selector" [] labels
    ports := ← field fs "ports" [] (list servicePort) }

/-! ## Ingresses -/

/-- The name and the port of a service that is written as a mapping. -/
def backendService : Typed (String × Option String) := fun v => do
  let fs ← fields ["name", "port"] v
  let name ← field fs "name" "" text
  let port ← field fs "port" none fun p => do
    let fs ← fields ["number", "name"] p
    let number ← field fs "number" none (optional natural)
    let name ← field fs "name" none (optional text)
    return (number.map fun n => toString n) <|> name
  return (name, port)

/-- The service behind a path, which may be written in two ways, or none. -/
def backend : Typed (Option (String × Option String)) := fun v => do
  let fs ← fields ["service", "serviceName", "servicePort"] v
  let service ← field fs "service" none (optional backendService)
  let name ← field fs "serviceName" none (optional text)
  let port ← field fs "servicePort" none (optional textOrInteger)
  return service <|> name.map fun n => (n, port)

/-- A path of an ingress. One without a service is passed over. -/
def ingressPath : Typed (Option IngressPath) := fun v => do
  let fs ← fields ["path", "backend"] v
  let path ← field fs "path" "" text
  let backend ← field fs "backend" none backend
  return backend.map fun (service, port) => { path, service, port }

/-- A rule of an ingress. -/
def ingressRule : Typed IngressRule := fun v => do
  let fs ← fields ["host", "http"] v
  let host ← field fs "host" none (optional text)
  let paths ← field fs "http" none (optional fun h => do
    field (← fields ["paths"] h) "paths" [] (list ingressPath))
  return { host, paths := (paths.getD []).filterMap id }

/-- The rules of an ingress. -/
def ingressSpec : Typed (List IngressRule) := fun v => do
  field (← fields ["rules"] v) "rules" [] (list ingressRule)

/-! ## Kinds -/

/-- The kinds that have a specification of their own. -/
def knownKinds : List String := ["Deployment", "StatefulSet", "Service", "Ingress", "Namespace"]

/-- The specification of a resource of a kind. -/
def Spec.ofValue? (kind : String) (v : Value) : Option Spec :=
  if kind = "Deployment" then (workloadSpec v).map .deployment
  else if kind = "StatefulSet" then (workloadSpec v).map .statefulSet
  else if kind = "Service" then (serviceSpec v).map .service
  else if kind = "Ingress" then (ingressSpec v).map .ingress
  else if kind = "Namespace" then some .namespace
  else some .other

end Atlas.Kubernetes
