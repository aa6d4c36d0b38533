import Atlas.Kubernetes.Resource
import Atlas.Graph.Record

/-!
# Kubernetes records

Manifests as plain data, and back.
-/

namespace Atlas.Kubernetes

/-- Labels as plain data. -/
def labelsData (ls : Labels) : Data := .record (ls.map fun (k, v) => (k, .text v))

/-- A key as plain data. -/
def ResourceKey.toData (k : ResourceKey) : Data :=
  .record [("namespace", .text k.ns), ("kind", .text k.kind), ("name", .text k.name)]

/-- The members of a workload. -/
def WorkloadSpec.members (w : WorkloadSpec) : List (String × Data) :=
  [("replicas", .optional Data.nat w.replicas), ("selector", labelsData w.selector),
    ("template_labels", labelsData w.templateLabels),
    ("containers", .list (w.containers.map fun c =>
      .record [("name", .text c.name), ("image", .text c.image),
        ("ports", .list (c.ports.map Data.nat))]))]

/-- The members of a service. -/
def ServiceSpec.members (s : ServiceSpec) : List (String × Data) :=
  [("service_type", .optionalText s.type), ("selector", labelsData s.selector),
    ("ports", .list (s.ports.map fun p =>
      .record [("name", .optionalText p.name), ("port", .text p.port),
        ("target_port", .optionalText p.targetPort), ("protocol", .optionalText p.protocol)]))]

/-- The member of the rules of an ingress. -/
def rulesMember (rules : List IngressRule) : String × Data :=
  ("rules", .list (rules.map fun r =>
    .record [("host", .optionalText r.host), ("paths", .list (r.paths.map fun p =>
      .record [("path", .text p.path), ("service", .text p.service),
        ("port", .optionalText p.port)]))]))

/-- A specification as plain data, with the word for its kind. -/
def Spec.toData : Spec → Data
  | .deployment w => .record (("type", .text "deployment") :: w.members)
  | .statefulSet w => .record (("type", .text "stateful_set") :: w.members)
  | .service s => .record (("type", .text "service") :: s.members)
  | .ingress rules => .record [("type", .text "ingress"), rulesMember rules]
  | .namespace => .record [("type", .text "namespace")]
  | .other => .record [("type", .text "other")]

/-- A resource as plain data. -/
def Resource.toData (r : Resource) : Data :=
  .record ([("name", .text r.name), ("kind", .text r.kind)] ++
    Data.member? "namespace" (r.ns.map .text) ++
    [("labels", labelsData r.labels), ("spec", r.spec.toData), ("source", .text r.source),
      ("document", .nat r.document)])

/-- A relation as plain data. -/
def ResourceRelation.toData (r : ResourceRelation) : Data :=
  .record [("from", r.source.toData), ("to", r.target.toData), ("kind", .text r.kind.code)]

/-- Manifests as plain data. -/
def Manifests.toData (m : Manifests) : Data :=
  .record [("resources", .list (m.resources.map (·.toData))),
    ("relations", .list (m.relations.map (·.toData)))]

/-! ## Reading -/

/-- The labels of a record. -/
def labelsOf (d : Data) (name : String) : Labels :=
  Data.sortedMembers ((d.get name).members.map fun (k, v) => (k, v.toText))

/-- The key of a record. -/
def ResourceKey.ofData (d : Data) : ResourceKey :=
  ⟨d.textOf "namespace", d.textOf "kind", d.textOf "name"⟩

/-- The workload of a record. -/
def WorkloadSpec.ofData (d : Data) : WorkloadSpec :=
  { replicas := d.natOf? "replicas", selector := labelsOf d "selector"
    templateLabels := labelsOf d "template_labels"
    containers := Data.listOf (fun c =>
      ⟨c.textOf "name", c.textOf "image", Data.listOf Data.toNat c "ports"⟩) d "containers" }

/-- The service of a record. -/
def ServiceSpec.ofData (d : Data) : ServiceSpec :=
  { type := d.textOf? "service_type", selector := labelsOf d "selector"
    ports := Data.listOf (fun p =>
      ⟨p.textOf? "name", p.textOf "port", p.textOf? "target_port", p.textOf? "protocol"⟩)
      d "ports" }

/-- The ingress rule of a record. -/
def IngressRule.ofData (d : Data) : IngressRule :=
  ⟨d.textOf? "host", Data.listOf (fun p =>
    ⟨p.textOf "path", p.textOf "service", p.textOf? "port"⟩) d "paths"⟩

/-- The specification of a record, by the word for its kind. -/
def Spec.ofData (d : Data) : Spec :=
  match d.textOf "type" with
  | "deployment" => .deployment (.ofData d)
  | "stateful_set" => .statefulSet (.ofData d)
  | "service" => .service (.ofData d)
  | "ingress" => .ingress (Data.listOf IngressRule.ofData d "rules")
  | "namespace" => .namespace
  | _ => .other

/-- The resource of a record. -/
def Resource.ofData (d : Data) : Resource :=
  { name := d.textOf "name", kind := d.textOf "kind", ns := d.textOf? "namespace"
    labels := labelsOf d "labels", spec := .ofData (d.get "spec")
    source := d.textOf "source", document := d.natOf "document" }

/-- The manifests of a record. -/
def Manifests.ofData (d : Data) : Manifests :=
  ⟨Data.listOf Resource.ofData d "resources", Data.listOf (fun r =>
    ⟨.ofData (r.get "from"), .ofData (r.get "to"), .ofData (r.get "kind")⟩) d "relations"⟩

end Atlas.Kubernetes
