import Atlas.Kubernetes.Graph
import Atlas.Proofs.Graph.Growth
import Atlas.Proofs.Kubernetes.Inventory
import Mathlib.Data.List.Flatten
import Mathlib.Data.List.Perm.Basic
import Mathlib.Data.Prod.Lex

/-!
# The graph of manifests

A relation between resources has a cause : a service and a workload that it selects, or a path of an
ingress (`Cause.Yields`). The causes in a list of resources are in the order of their places
(`Cause.place`), and the inferred relations are those that they yield, one by one
(`exists_causes`). So they do not depend on the order of the resources but for their own order
(`perm_inferred`), and none is lost where resources are added (`sublist_inferred`).

The graph extracts one entity for the resources of one entity (`Manifests.entities_graph`) and keeps
the relations as they are (`Manifests.relations_graph`). Two keys have one entity if they are equal
or differ only in where a slash divides a kind that is not known from the name
(`ResourceKey.entity_eq_iff`).

Every resource that was read has a specification of its kind (`fits_of_mem_readManifests`). So what
is left dangling are the services behind an ingress that no manifest declares
(`shownRelations_readManifests`).
-/

set_option linter.unusedSectionVars false

namespace Atlas.Kubernetes

/-! ## Causes -/

/-- Where a relation comes from, by places : of a service and a workload among the resources, or of
an ingress among the resources, of a rule in it and of a path in that. -/
inductive Cause where
  | selects (service workload : ℕ)
  | routes (ingress rule path : ℕ)

/-- The order of causes : by the source, then by the workload or the path. -/
def Cause.place : Cause → ℕ ×ₗ ℕ ×ₗ ℕ
  | selects a b => toLex (a, toLex (b, 0))
  | routes a i j => toLex (a, toLex (i, j))

/-- A cause for a relation. A service selects a deployment or a stateful set of its namespace if its
selector asks for something and the labels of the pods have all of it. An ingress routes to the
services behind its paths, declared or not. -/
inductive Cause.Yields (rs : List Resource) : Cause → ResourceRelation → Prop
  | selects {a b : ℕ} {A B : Resource} {s : ServiceSpec} {w : WorkloadSpec}
      (source : rs[a]? = some A) (target : rs[b]? = some B) (service : A.spec = .service s)
      (workload : B.spec = .deployment w ∨ B.spec = .statefulSet w)
      (ns : B.effectiveNamespace = A.effectiveNamespace) (asks : s.selector ≠ [])
      (has : ∀ k v, (k, v) ∈ s.selector → w.templateLabels.lookup k = some v) :
      Yields rs (selects a b) ⟨A.key, B.key, .selects⟩
  | routes {a i j : ℕ} {A : Resource} {rules : List IngressRule} {rule : IngressRule}
      {path : IngressPath} (source : rs[a]? = some A) (ingress : A.spec = .ingress rules)
      (inRules : rules[i]? = some rule) (inPaths : rule.paths[j]? = some path) :
      Yields rs (routes a i j) ⟨A.key, ⟨A.effectiveNamespace, "Service", path.service⟩, .routes⟩

theorem selects_iff (selector labels : Labels) : selects selector labels = true ↔
    selector ≠ [] ∧ ∀ k v, (k, v) ∈ selector → labels.lookup k = some v := by
  simp [selects]

theorem templateLabels?_eq_some {s : Spec} {ls : Labels} : s.templateLabels? = some ls ↔
    ∃ w, (s = .deployment w ∨ s = .statefulSet w) ∧ w.templateLabels = ls := by
  cases s <;> simp [Spec.templateLabels?]

theorem selectsResource_iff (s : Resource) (selector : Labels) (r : Resource) :
    selectsResource s selector r = true ↔ r.effectiveNamespace = s.effectiveNamespace ∧
      ∃ w, (r.spec = .deployment w ∨ r.spec = .statefulSet w) ∧ selector ≠ [] ∧
        ∀ k v, (k, v) ∈ selector → w.templateLabels.lookup k = some v := by
  rw [selectsResource, Bool.and_eq_true, decide_eq_true_iff, Option.any_eq_true]
  refine and_congr Iff.rfl ⟨?_, ?_⟩
  · rintro ⟨ls, hls, hs⟩
    obtain ⟨w, hw, rfl⟩ := templateLabels?_eq_some.1 hls
    exact ⟨w, hw, (selects_iff _ _).1 hs⟩
  · rintro ⟨w, hw, hs⟩
    exact ⟨_, templateLabels?_eq_some.2 ⟨w, hw, rfl⟩, (selects_iff _ _).2 hs⟩

/-! ## All causes in order -/

/-- The causes with their relations that start at the resource `A` with the place `a`. -/
def causesOf (rs : List Resource) (A : Resource) (a : ℕ) : List (Cause × ResourceRelation) :=
  match A.spec with
  | .service s =>
    (rs.zipIdx.filter fun p => selectsResource A s.selector p.1).map fun p =>
      (.selects a p.2, ⟨A.key, p.1.key, .selects⟩)
  | .ingress rules =>
    rules.zipIdx.flatMap fun p => p.1.paths.zipIdx.map fun q =>
      (.routes a p.2 q.2, ⟨A.key, backendKey A q.1, .routes⟩)
  | _ => []

/-- The causes among some resources with their relations. -/
def causes (rs : List Resource) : List (Cause × ResourceRelation) :=
  rs.zipIdx.flatMap fun p => causesOf rs p.1 p.2

theorem map_snd_causesOf (rs : List Resource) (A : Resource) (a : ℕ) :
    (causesOf rs A a).map Prod.snd = relationsOf rs A := by
  unfold causesOf relationsOf
  cases A.spec with
  | service s =>
    dsimp only
    conv_rhs => rw [← List.zipIdx_map_fst 0 rs, List.filter_map, List.map_map]
    exact List.map_map
  | ingress rules =>
    dsimp only
    conv_rhs => rw [← List.zipIdx_map_fst 0 rules, List.flatMap_map, List.map_flatMap]
    rw [List.map_flatMap]
    refine List.flatMap_congr fun p _ => ?_
    conv_rhs => rw [← List.zipIdx_map_fst 0 p.1.paths, List.map_map]
    exact List.map_map
  | _ => rfl

theorem map_snd_causes (rs : List Resource) : (causes rs).map Prod.snd = inferred rs := by
  conv_rhs => rw [inferred, ← List.zipIdx_map_fst 0 rs, List.flatMap_map]
  rw [causes, List.map_flatMap]
  refine List.flatMap_congr fun p _ => ?_
  rw [map_snd_causesOf, List.zipIdx_map_fst]

/-- The causes are those that there are, each with the relation that it yields. -/
theorem mem_causes {rs : List Resource} {c : Cause} {r : ResourceRelation} :
    (c, r) ∈ causes rs ↔ c.Yields rs r := by
  constructor
  · intro h
    obtain ⟨⟨A, a⟩, hA, h⟩ := List.mem_flatMap.1 h
    have hA := List.mem_zipIdx_iff_getElem?.1 hA
    unfold causesOf at h
    split at h
    · next s hs =>
      obtain ⟨⟨B, b⟩, hB, h⟩ := List.mem_map.1 h
      obtain ⟨hB, hsel⟩ := List.mem_filter.1 hB
      obtain ⟨hns, w, hw, hasks, hhas⟩ := (selectsResource_iff _ _ _).1 hsel
      obtain ⟨rfl, rfl⟩ := Prod.mk.inj h
      exact .selects hA (List.mem_zipIdx_iff_getElem?.1 hB) hs hw hns hasks hhas
    · next rules hrules =>
      obtain ⟨⟨rule, i⟩, hrule, h⟩ := List.mem_flatMap.1 h
      obtain ⟨⟨path, j⟩, hpath, h⟩ := List.mem_map.1 h
      obtain ⟨rfl, rfl⟩ := Prod.mk.inj h
      exact .routes hA hrules (List.mem_zipIdx_iff_getElem?.1 hrule)
        (List.mem_zipIdx_iff_getElem?.1 hpath)
    · simp at h
  · intro h
    cases h with
    | @selects a b A B s w hA hB hs hw hns hasks hhas =>
      refine List.mem_flatMap.2 ⟨(A, a), List.mem_zipIdx_iff_getElem?.2 hA, ?_⟩
      rw [causesOf, hs]
      refine List.mem_map.2 ⟨(B, b), List.mem_filter.2 ⟨List.mem_zipIdx_iff_getElem?.2 hB, ?_⟩, rfl⟩
      exact (selectsResource_iff _ _ _).2 ⟨hns, w, hw, hasks, hhas⟩
    | @routes a i j A rules rule path hA hrules hrule hpath =>
      refine List.mem_flatMap.2 ⟨(A, a), List.mem_zipIdx_iff_getElem?.2 hA, ?_⟩
      rw [causesOf, hrules]
      refine List.mem_flatMap.2 ⟨(rule, i), List.mem_zipIdx_iff_getElem?.2 hrule, ?_⟩
      exact List.mem_map.2 ⟨(path, j), List.mem_zipIdx_iff_getElem?.2 hpath, rfl⟩

/-! ## Other lists of resources -/

open Yaml (Value)

/-! ## The entity of a key -/

theorem entityKind_of_mem_knownKinds {kind : String} (h : kind ∈ knownKinds) :
    entityKind kind ≠ .resource ∧ (entityKind kind).label = kind := by
  have hall : ∀ kind ∈ knownKinds,
      entityKind kind ≠ .resource ∧ (entityKind kind).label = kind := by
    decide
  exact hall kind h

theorem entityKind_eq_resource_iff {kind : String} :
    entityKind kind = .resource ↔ kind ∉ knownKinds := by
  refine ⟨fun h hk => (entityKind_of_mem_knownKinds hk).1 h, fun h => ?_⟩
  simp only [knownKinds, List.mem_cons, List.not_mem_nil, or_false, not_or] at h
  obtain ⟨hd, hss, hs, hi, hn⟩ := h
  unfold entityKind
  split <;> first | rfl | exact absurd rfl ‹_›

namespace ResourceKey

theorem entity_of_mem_knownKinds {k : ResourceKey} (h : k.kind ∈ knownKinds) :
    k.entity = ⟨entityKind k.kind, k.name, some k.ns⟩ := by
  rw [entity, if_neg (entityKind_of_mem_knownKinds h).1]

theorem entity_of_not_mem_knownKinds {k : ResourceKey} (h : k.kind ∉ knownKinds) :
    k.entity = ⟨.resource, k.kind ++ "/" ++ k.name, some k.ns⟩ := by
  rw [entity, if_pos (entityKind_eq_resource_iff.2 h), entityKind_eq_resource_iff.2 h]

/-- Two keys have one entity just if they are equal, or else of kinds that are not known and with
the same text where kind and name are joined by a slash. -/
theorem entity_eq_iff {k k' : ResourceKey} : k.entity = k'.entity ↔
    k = k' ∨ k.kind ∉ knownKinds ∧ k'.kind ∉ knownKinds ∧ k.ns = k'.ns ∧
      k.kind ++ "/" ++ k.name = k'.kind ++ "/" ++ k'.name := by
  constructor
  · intro h
    have hkind : entityKind k.kind = entityKind k'.kind := congrArg Entity.kind h
    by_cases hk : k.kind ∈ knownKinds
    · have hk' : k'.kind ∈ knownKinds := by
        by_contra hk'
        rw [entityKind_eq_resource_iff.2 hk'] at hkind
        exact (entityKind_of_mem_knownKinds hk).1 hkind
      have hlabel : k.kind = k'.kind := by
        rw [← (entityKind_of_mem_knownKinds hk).2, hkind, (entityKind_of_mem_knownKinds hk').2]
      rw [entity_of_mem_knownKinds hk, entity_of_mem_knownKinds hk'] at h
      obtain ⟨-, hname, hns⟩ := Entity.mk.inj h
      obtain ⟨ns, kind, name⟩ := k
      obtain ⟨ns', kind', name'⟩ := k'
      exact Or.inl (ResourceKey.mk.injEq .. ▸ ⟨Option.some.inj hns, hlabel, hname⟩)
    · have hk' : k'.kind ∉ knownKinds := by
        rwa [← entityKind_eq_resource_iff, ← hkind, entityKind_eq_resource_iff]
      rw [entity_of_not_mem_knownKinds hk, entity_of_not_mem_knownKinds hk'] at h
      obtain ⟨-, hname, hns⟩ := Entity.mk.inj h
      exact Or.inr ⟨hk, hk', Option.some.inj hns, hname⟩
  · rintro (rfl | ⟨hk, hk', hns, hname⟩)
    · rfl
    · rw [entity_of_not_mem_knownKinds hk, entity_of_not_mem_knownKinds hk', hns, hname]

/-- A kind that is known tells its entities from those of all other kinds. -/
theorem entity_inj {k k' : ResourceKey} (hk : k.kind ∈ knownKinds) (h : k'.entity = k.entity) :
    k' = k :=
  (entity_eq_iff.1 h).elim id fun h => absurd hk h.2.1

end ResourceKey

/-! ## What the graph holds -/

namespace Manifests

variable (m : Manifests)

/-- The graph of the resources before their relations are added. -/
theorem extracts_resources : Graph.Extracts (m.resources.map (·.entityNode))
    ((m.resources.map (·.entityNode)).foldl Graph.addNew Graph.empty) := by
  refine Graph.extracts_foldl_addNew fun n hn => ?_
  obtain ⟨r, -, rfl⟩ := List.mem_map.1 hn
  rfl

/-- Of the resources of one entity the first is extracted. -/
theorem entities_graph :
    m.graph.entities = (firsts (·.key.entity) m.resources).map (·.entityNode) := by
  rw [graph, Graph.WellFormed.entities_foldl_relate, m.extracts_resources.entities, firsts_map]
  rfl

theorem relations_graph : m.graph.relations = m.relations.map (·.entityRelation) := by
  have h := m.extracts_resources
  rw [graph, h.wellFormed.relations_foldl_relate, h.relations, List.nil_append]

/-- An end of a relation is dangling if no resource has its entity. -/
theorem mem_dangling_graph (e : Entity) : e ∈ m.graph.dangling ↔
    (∃ r ∈ m.relations, e = r.source.entity ∨ e = r.target.entity) ∧
      ∀ r ∈ m.resources, r.key.entity ≠ e := by
  have h := m.extracts_resources
  have hnew : e ∉ (m.resources.map (·.entityNode)).map (·.entity) ↔
      ∀ r ∈ m.resources, r.key.entity ≠ e := by
    simp [Resource.entityNode]
  rw [graph, h.wellFormed.mem_dangling_foldl_relate, h.dangling, h.mem_mentioned, hnew]
  simp [ResourceRelation.entityRelation]

/-- The entity of a resource is extracted. -/
theorem not_mem_dangling_graph {r : Resource} (hr : r ∈ m.resources) :
    r.key.entity ∉ m.graph.dangling :=
  fun h => ((m.mem_dangling_graph _).1 h).2 r hr rfl

end Manifests

theorem mem_inferred {rs : List Resource} {r : ResourceRelation} :
    r ∈ inferred rs ↔ ∃ c : Cause, c.Yields rs r := by
  rw [← map_snd_causes, List.mem_map]
  constructor
  · rintro ⟨⟨c, r⟩, h, rfl⟩
    exact ⟨c, mem_causes.1 h⟩
  · rintro ⟨c, h⟩
    exact ⟨(c, r), mem_causes.2 h, rfl⟩

/-- An ingress routes to a service of its namespace. -/
def Resource.RoutesTo (r : Resource) (service : String) : Prop :=
  ∃ rules, r.spec = .ingress rules ∧ ∃ rule ∈ rules, ∃ path ∈ rule.paths, path.service = service

/-- A relation starts at a resource and ends at another, or at a service to which the first
routes. -/
theorem ends_of_mem_inferred {rs : List Resource} {r : ResourceRelation} (h : r ∈ inferred rs) :
    ∃ A ∈ rs, r.source = A.key ∧
      ((∃ B ∈ rs, r.target = B.key) ∨
        r.kind = .routes ∧ ∃ service, A.RoutesTo service ∧
          r.target = ⟨A.effectiveNamespace, "Service", service⟩) := by
  obtain ⟨c, hc⟩ := mem_inferred.1 h
  cases hc with
  | selects hA hB =>
    exact ⟨_, List.mem_of_getElem? hA, rfl, Or.inl ⟨_, List.mem_of_getElem? hB, rfl⟩⟩
  | routes hA hrules hrule hpath =>
    refine ⟨_, List.mem_of_getElem? hA, rfl, Or.inr ⟨rfl, _, ?_, rfl⟩⟩
    exact ⟨_, hrules, _, List.mem_of_getElem? hrule, _, List.mem_of_getElem? hpath, rfl⟩

theorem mem_inferred_of_routesTo {rs : List Resource} {r : Resource} (hr : r ∈ rs)
    {service : String} (h : r.RoutesTo service) :
    ⟨r.key, ⟨r.effectiveNamespace, "Service", service⟩, .routes⟩ ∈ inferred rs := by
  obtain ⟨rules, hrules, rule, hrule, path, hpath, rfl⟩ := h
  obtain ⟨a, ha⟩ := List.getElem?_of_mem hr
  obtain ⟨i, hi⟩ := List.getElem?_of_mem hrule
  obtain ⟨j, hj⟩ := List.getElem?_of_mem hpath
  exact mem_inferred.2 ⟨.routes a i j, .routes ha hrules hi hj⟩

/-! ## Resources that were read -/

/-- The kind of the resources that have a specification. -/
def Spec.kind? : Spec → Option String
  | .deployment _ => some "Deployment"
  | .statefulSet _ => some "StatefulSet"
  | .service _ => some "Service"
  | .ingress _ => some "Ingress"
  | .namespace => some "Namespace"
  | .other => none

/-- The specification is that of a resource of its kind. -/
def Resource.Fits (r : Resource) : Prop :=
  r.spec.kind? = knownKinds.find? (· = r.kind)

theorem Spec.kind?_of_ofValue? {kind : String} {v : Value} {s : Spec}
    (h : Spec.ofValue? kind v = some s) : s.kind? = knownKinds.find? (· = kind) := by
  by_cases hk : kind ∈ knownKinds
  · simp only [knownKinds, List.mem_cons, List.not_mem_nil, or_false] at hk
    rcases hk with rfl | rfl | rfl | rfl | rfl
    all_goals
      simp only [ofValue?, String.reduceEq, if_true, if_false, Option.map_eq_some_iff,
        Option.some.injEq] at h
    · obtain ⟨w, -, rfl⟩ := h
      rfl
    · obtain ⟨w, -, rfl⟩ := h
      rfl
    · obtain ⟨s, -, rfl⟩ := h
      rfl
    · obtain ⟨rules, -, rfl⟩ := h
      rfl
    · subst h
      rfl
  · have hnone : knownKinds.find? (· = kind) = none :=
      List.find?_eq_none.2 fun k hm he => hk ((of_decide_eq_true he) ▸ hm)
    simp only [knownKinds, List.mem_cons, List.not_mem_nil, or_false, not_or] at hk
    obtain ⟨hd, hss, hsv, hi, hn⟩ := hk
    rw [ofValue?, if_neg hd, if_neg hss, if_neg hsv, if_neg hi, if_neg hn, Option.some.injEq] at h
    rw [← h, hnone]
    rfl

theorem Resource.Fits.kind_of_ingress {r : Resource} (h : r.Fits) {rules : List IngressRule}
    (hr : r.spec = .ingress rules) : r.kind = "Ingress" := by
  rw [Fits, hr] at h
  have hkind : "Ingress" = r.kind := by simpa using List.find?_some h.symm
  exact hkind.symm

/-- A decoder that knows the known kinds reads specifications of the kind. -/
theorem fits_of_mem_readManifests {dec : Decoder} (hdec : dec.spec? = Spec.ofValue?)
    {manifests : List (String × String)} {r : Resource}
    (h : r ∈ (Inventory.empty.readManifests dec manifests).resources) : r.Fits := by
  obtain ⟨d, -, hd⟩ := Inventory.exists_of_mem_readManifests h
  obtain ⟨hd, spec, hspec, rfl⟩ := dec.exists_of_read? hd
  rw [hdec] at hspec
  exact Spec.kind?_of_ofValue? hspec

/-! ## Relations and dangling services -/

/-- The graph of manifests has the relations between their resources, each from an extracted entity.
A workload that a service selects is extracted as well, and dangling are the services behind an
ingress of their namespace that are not declared. -/
structure Manifests.ShownRelations (m : Manifests) : Prop where
  relations : m.graph.relations =
    m.relations.map fun r => ⟨r.source.entity, r.target.entity, r.kind, none⟩
  sources : ∀ r ∈ m.graph.relations, r.source ∉ m.graph.dangling
  selects : ∀ r ∈ m.graph.relations, r.kind = .selects →
    r.source ∉ m.graph.dangling ∧ r.target ∉ m.graph.dangling
  dangling : ∀ e, e ∈ m.graph.dangling ↔ ∃ ns name, e = ⟨.service, name, some ns⟩ ∧
    (∃ r ∈ m.resources, r.kind = "Ingress" ∧ r.effectiveNamespace = ns ∧ r.RoutesTo name) ∧
    ∀ r ∈ m.resources, r.kind = "Service" → r.effectiveNamespace = ns → r.name ≠ name

theorem service_mem_knownKinds : "Service" ∈ knownKinds := by
  decide

/-- The entity of a service. -/
def serviceEntity (ns name : String) : Entity :=
  ⟨.service, name, some ns⟩

theorem entity_service (ns name : String) :
    (⟨ns, "Service", name⟩ : ResourceKey).entity = serviceEntity ns name :=
  ResourceKey.entity_of_mem_knownKinds service_mem_knownKinds

/-- A resource has the entity of a service just if it is that service. -/
theorem Resource.entity_eq_service_iff {r : Resource} {ns name : String} :
    r.key.entity = serviceEntity ns name ↔
      r.kind = "Service" ∧ r.effectiveNamespace = ns ∧ r.name = name := by
  rw [← entity_service]
  constructor
  · intro he
    have hkey := ResourceKey.entity_inj service_mem_knownKinds he
    obtain ⟨hns, hkind, hname⟩ := ResourceKey.mk.inj hkey
    exact ⟨hkind, hns, hname⟩
  · rintro ⟨hkind, rfl, rfl⟩
    rw [Resource.key, hkind]

namespace Manifests

variable {rs : List Resource}

theorem relation_ofResources {q : Relation} (hq : q ∈ (ofResources rs).graph.relations) :
    q.source ∉ (ofResources rs).graph.dangling ∧
      (q.kind = .selects → q.target ∉ (ofResources rs).graph.dangling) := by
  rw [relations_graph] at hq
  obtain ⟨r, hr, rfl⟩ := List.mem_map.1 hq
  obtain ⟨A, hA, hsource, htarget⟩ := ends_of_mem_inferred hr
  have hs : r.source.entity ∉ (ofResources rs).graph.dangling :=
    hsource ▸ not_mem_dangling_graph _ hA
  refine ⟨hs, fun hkind => ?_⟩
  rcases htarget with ⟨B, hB, htarget⟩ | ⟨hroutes, -⟩
  · exact show r.target.entity ∉ _ from htarget ▸ not_mem_dangling_graph _ hB
  · exact absurd (hroutes.symm.trans hkind) (by decide)

/-- Dangling are the services behind the resources that route to them, where no resource has the
entity of such a service. -/
theorem mem_dangling_ofResources {e : Entity} : e ∈ (ofResources rs).graph.dangling ↔
    ∃ A ∈ rs, ∃ name, A.RoutesTo name ∧ e = serviceEntity A.effectiveNamespace name ∧
      ∀ r ∈ rs, r.key.entity ≠ e := by
  rw [mem_dangling_graph]
  constructor
  · rintro ⟨⟨r, hr, he⟩, hnew⟩
    obtain ⟨A, hA, hsource, htarget⟩ := ends_of_mem_inferred hr
    have he : e = r.target.entity :=
      he.resolve_left fun he => hnew A hA (he.trans (congrArg _ hsource)).symm
    rcases htarget with ⟨B, hB, htarget⟩ | ⟨-, name, hname, htarget⟩
    · exact absurd (he.trans (congrArg _ htarget)).symm (hnew B hB)
    · exact ⟨A, hA, name, hname, by rw [he, htarget, entity_service], hnew⟩
  · rintro ⟨A, hA, name, hname, rfl, hnew⟩
    exact ⟨⟨_, mem_inferred_of_routesTo hA hname, Or.inr (entity_service _ _).symm⟩, hnew⟩

theorem shownRelations_ofResources (h : ∀ r ∈ rs, r.Fits) : (ofResources rs).ShownRelations where
  relations := relations_graph _
  sources _ hq := (relation_ofResources hq).1
  selects _ hq hkind := ⟨(relation_ofResources hq).1, (relation_ofResources hq).2 hkind⟩
  dangling e := by
    have hnone (ns name : String) : (∀ r ∈ rs, r.key.entity ≠ serviceEntity ns name) ↔
        ∀ r ∈ rs, r.kind = "Service" → r.effectiveNamespace = ns → r.name ≠ name := by
      refine forall₂_congr fun r _ => ?_
      rw [ne_eq, Resource.entity_eq_service_iff, not_and, not_and]
    rw [mem_dangling_ofResources]
    constructor
    · rintro ⟨A, hA, name, hname, rfl, hnew⟩
      obtain ⟨rules, hrules, -⟩ := id hname
      exact ⟨_, name, rfl, ⟨A, hA, (h A hA).kind_of_ingress hrules, rfl, hname⟩, (hnone _ _).1 hnew⟩
    · rintro ⟨ns, name, rfl, ⟨A, hA, -, rfl, hname⟩, hnew⟩
      exact ⟨A, hA, name, hname, rfl, (hnone _ _).2 hnew⟩

end Manifests

/-- Whatever manifests are read : the graph has the relations between their resources, in their
order, no relation starts at a dangling entity or selects one, and dangling is just a service behind
an ingress for which no service of that namespace and name was read. -/
theorem shownRelations_readManifests (manifests : List (String × String)) :
    (Manifests.ofResources
      (Inventory.empty.readManifests .yaml manifests).resources).ShownRelations :=
  Manifests.shownRelations_ofResources fun _ => fits_of_mem_readManifests rfl

end Atlas.Kubernetes
