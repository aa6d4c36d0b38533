import Atlas.Proofs.Docker.Nodes
import Atlas.Proofs.Graph.Growth

/-!
# Dependencies between services

Services depend on others, are connected to networks and mount volumes. The graph has a relation for
each of these (`Service.relations`), and dangling targets where the compose file does not declare
them (`Project.dependencies_eq`). The diagram has an edge wherever the target of what it looks for
is declared (`Service.sought`). It looks for more than the graph relates : a mount without a source
is no bind mount, and it leads to a volume that is declared with an empty name. So graph and diagram
agree just if there is no such mount or no such volume (`Project.dependencies_shown`,
`empty_mount_drawn`).
-/

set_option linter.unusedSectionVars false

namespace Atlas.Docker

open Identifiers PlantUml

/-! ## The graph -/

/-- A graph of Dockerfiles and stages. -/
structure OfFiles (g : Graph) : Prop where
  wellFormed : g.WellFormed
  kinds : ∀ e ∈ g.mentioned, e.kind ∈ [EntityKind.dockerfile, .stage]
  relations : ∀ r ∈ g.relations, r.kind ∈ [RelationKind.contains, .inherits]

namespace OfFiles

variable {g : Graph}

theorem empty : OfFiles .empty :=
  ⟨Graph.wellFormed_empty, List.forall_mem_nil _, List.forall_mem_nil _⟩

theorem add (h : OfFiles g) {n : EntityNode} {i : ℕ} {g' : Graph} (ha : g.add n = .ok (i, g'))
    (hn : n.entity.kind ∈ [EntityKind.dockerfile, .stage]) : OfFiles g' := by
  have hnew : g.addNew n = g' := by rw [Graph.addNew, ha]
  rw [← hnew]
  refine ⟨h.wellFormed.addNew n, fun e he => ?_, ?_⟩
  · rw [h.wellFormed.mentioned_addNew, mem_concatNew] at he
    rcases he with he | rfl
    · exact h.kinds e he
    · exact hn
  · rw [h.wellFormed.relations_addNew]
    exact h.relations

theorem relate (h : OfFiles g) {r : Relation}
    (hs : r.source.kind ∈ [EntityKind.dockerfile, .stage])
    (ht : r.target.kind ∈ [EntityKind.dockerfile, .stage])
    (hk : r.kind ∈ [RelationKind.contains, .inherits]) : OfFiles (g.relate r) := by
  refine ⟨h.wellFormed.relate r, fun e he => ?_, ?_⟩
  · rcases (h.wellFormed.mem_mentioned_relate r e).1 he with he | rfl | rfl
    · exact h.kinds e he
    · exact hs
    · exact ht
  · rw [h.wellFormed.relations_relate]
    exact List.forall_mem_append.2 ⟨h.relations, List.forall_mem_singleton.2 hk⟩

theorem addStage (h : OfFiles g) (f : Dockerfile) (s : Stage) : OfFiles (addStage f g s) := by
  unfold Docker.addStage
  dsimp only
  split
  · exact h
  · next ha =>
    have hstage := (h.add ha (by simp [stageEntity])).relate
      (r := ⟨f.entity, stageEntity f.path s, .contains, none⟩) (by simp [Dockerfile.entity])
      (by simp [stageEntity]) (by simp)
    split
    · exact hstage.relate (by simp [stageEntity]) (by simp [stageEntity]) (by simp)
    · exact hstage

theorem addDockerfile (h : OfFiles g) (f : Dockerfile) : OfFiles (addDockerfile g f) := by
  unfold Docker.addDockerfile
  split
  · exact h
  · next ha =>
    have hfile := h.add ha (by simp [Dockerfile.entity])
    exact f.stages.foldlRecOn _ hfile fun g hg s _ => hg.addStage f s

end OfFiles

theorem ofFiles_foldl (fs : List Dockerfile) : OfFiles (fs.foldl addDockerfile .empty) :=
  fs.foldlRecOn _ .empty fun _ hg f _ => hg.addDockerfile f

theorem Project.graph_eq (p : Project) : p.graph =
    (p.composed.services.flatMap (·.relations)).foldl Graph.relate
      (p.composed.nodes.foldl Graph.addNew (p.dockerfiles.foldl addDockerfile .empty)) := by
  rw [graph, composed]
  cases p.compose <;> rfl

/-- The entities of a compose file are those that the graph extracts from it. -/
theorem Compose.mem_entities_iff (c : Compose) (e : Entity) :
    e ∈ c.nodes.map (·.entity) ↔ e ∈ c.entities := by
  simp only [Compose.nodes, Compose.entities, List.map_append, List.map_map, List.mem_append]
  exact or_comm.trans or_assoc.symm

theorem Compose.nodes_extracted (c : Compose) : ∀ n ∈ c.nodes, n.dangling = false := by
  refine List.forall_mem_append.2 ⟨List.forall_mem_append.2 ⟨?_, ?_⟩, ?_⟩ <;>
    exact List.forall_mem_map.2 fun _ _ => rfl

/-- The kinds of relations of services. -/
def dependencyKinds : List RelationKind :=
  [.dependsOn, .connects, .mounts]

/-- The relations of services in the graph whose target is extracted. -/
def Project.dependencies (p : Project) : List Relation :=
  p.graph.relations.filter fun r => r.kind ∈ dependencyKinds ∧ r.target ∉ p.graph.dangling

theorem Service.relations_kinds (s : Service) : ∀ r ∈ s.relations,
    r.kind ∈ dependencyKinds ∧ r.target.kind ∉ [EntityKind.dockerfile, .stage] := by
  refine List.forall_mem_append.2 ⟨List.forall_mem_append.2 ⟨?_, ?_⟩, ?_⟩ <;>
    exact List.forall_mem_map.2 fun a _ => by
      simp [dependencyKinds, serviceEntity, networkEntity, volumeEntity]

section Graph

variable (p : Project)

theorem Project.adds_files : (p.dockerfiles.foldl addDockerfile .empty).Adds p.composed.nodes
    (p.composed.nodes.foldl Graph.addNew (p.dockerfiles.foldl addDockerfile .empty)) :=
  (ofFiles_foldl p.dockerfiles).wellFormed.adds_foldl p.composed.nodes_extracted

theorem Project.mem_dangling_graph {s : Service} (hs : s ∈ p.composed.services)
    {r : Relation} (hr : r ∈ s.relations) :
    r.target ∈ p.graph.dangling ↔ r.target ∉ p.composed.entities := by
  have hfiles := ofFiles_foldl p.dockerfiles
  have hadds := p.adds_files
  have hnot : r.target ∉ (p.dockerfiles.foldl addDockerfile .empty).mentioned := fun hmem =>
    (s.relations_kinds r hr).2 (hfiles.kinds _ hmem)
  have hdangling := fun hmem => hnot ((List.filter_sublist.map _).subset (hadds.dangling hmem))
  rw [graph_eq, hadds.wellFormed.mem_dangling_foldl_relate, hadds.mentioned,
    Compose.mem_entities_iff, or_iff_right hdangling, not_or]
  refine ⟨fun h => h.2.2, fun h => ⟨⟨r, ?_, Or.inr rfl⟩, hnot, h⟩⟩
  exact List.mem_flatMap.2 ⟨s, hs, hr⟩

/-- Of the relations of services those have an extracted target whose target is declared. -/
theorem Project.dependencies_eq : p.dependencies =
    (p.composed.services.flatMap (·.relations)).filter (·.target ∈ p.composed.entities) := by
  have hadds := p.adds_files
  have hrelations : p.graph.relations = (p.dockerfiles.foldl addDockerfile .empty).relations ++
      p.composed.services.flatMap (·.relations) := by
    rw [graph_eq, hadds.wellFormed.relations_foldl_relate, hadds.relations]
  rw [dependencies, hrelations, List.filter_append, List.filter_eq_nil_iff.2, List.nil_append]
  · refine List.filter_congr fun r hr => ?_
    obtain ⟨s, hs, hr⟩ := List.mem_flatMap.1 hr
    simp [(s.relations_kinds r hr).1, p.mem_dangling_graph hs hr]
  · intro r hr
    have hkind := (ofFiles_foldl p.dockerfiles).relations r hr
    simp only [List.mem_cons, List.not_mem_nil, or_false] at hkind
    rcases hkind with hk | hk <;> simp [hk, dependencyKinds]

end Graph

/-! ## The diagram -/

/-- What the diagram looks for from a service on : the relations of the service, and those of mounts
without a source too. -/
def Service.sought (s : Service) : List Relation :=
  s.dependsOn.map (fun d => ⟨serviceEntity s.name, serviceEntity d, .dependsOn, none⟩) ++
    s.networks.map (fun n => ⟨serviceEntity s.name, networkEntity n, .connects, none⟩) ++
    (s.volumes.filter (!·.isBind)).map fun v =>
      ⟨serviceEntity s.name, volumeEntity v.source, .mounts, some v.target⟩

/-- How a relation of a service is drawn between two identifiers. -/
def drawDependency (kind : RelationKind) (source target : String) : Edge :=
  match kind with
  | .dependsOn => { source, arrow := "..>", target, label := some "depends on" }
  | _ => { source, arrow := "--", target }

theorem ends_drawDependency (kind : RelationKind) (source target : String) :
    (drawDependency kind source target).source = source ∧
      (drawDependency kind source target).target = target := by
  unfold drawDependency
  split <;> exact ⟨rfl, rfl⟩

/-- The edge of a relation of a service, where each entity has a name. -/
def dependencyEdge (name : Entity → String) (r : Relation) : Edge :=
  drawDependency r.kind (name r.source) (name r.target)

/-- The graph relates what the diagram looks for, but for mounts without a source. -/
theorem Service.relations_eq (s : Service) :
    s.relations = s.sought.filter (·.target ≠ volumeEntity "") := by
  have hvolumes : s.namedVolumes =
      (s.volumes.filter (!·.isBind)).filter (decide <| volumeEntity ·.source ≠ volumeEntity "") := by
    rw [namedVolumes, List.filter_filter]
    refine List.filter_congr fun v _ => ?_
    simp [volumeEntity]
  rw [relations, sought, hvolumes, List.filter_append, List.filter_append, List.filter_map,
    List.filter_map, List.filter_map]
  congr 1
  congr 1
  · rw [List.filter_eq_self.2]
    exact fun d _ => by simp [serviceEntity, volumeEntity]
  · rw [List.filter_eq_self.2]
    exact fun n _ => by simp [networkEntity, volumeEntity]

/-- From a service on those edges are drawn whose targets are known. -/
theorem Service.edges_eq {ids : Identifiers} {s : Service} {c : Compose}
    (h : ids.Knows (entityKey (serviceEntity s.name)))
    (hc : ∀ r ∈ s.sought, r.target ∈ c.entities ↔ ids.Knows (entityKey r.target)) :
    s.edges ids = (s.sought.filter (·.target ∈ c.entities)).map
      (dependencyEdge fun e => ids.idOf (entityKey e)) := by
  have hsource : ids.lookup? ("service:" ++ s.name) = _ := h.lookup?_eq
  have hdrawn := filterMap_lookup? ids (fun r : Relation => entityKey r.target)
    (fun r => drawDependency r.kind (ids.idOf (entityKey r.source)))
    (p := (·.target ∈ c.entities))
    fun r (hr : r ∈ s.sought) => by rw [decide_eq_true_iff, hc r hr]
  have hedges : s.sought.filterMap (fun r => (ids.lookup? (entityKey r.target)).map
      (drawDependency r.kind (ids.idOf (entityKey r.source)))) = s.edges ids := by
    rw [Service.edges, hsource, sought, List.filterMap_append, List.filterMap_append,
      List.filterMap_map, List.filterMap_map, List.filterMap_map]
    dsimp only
    rw [List.filterMap_map]
    rfl
  rw [← hedges, hdrawn]
  rfl

theorem Service.mem_sought {s : Service} : ∀ r ∈ s.sought, r.source = serviceEntity s.name ∧
    r.target.kind ∈ nodeKinds ∧ r.target.scope = none ∧ r.target.kind ≠ .dockerfile := by
  refine List.forall_mem_append.2 ⟨List.forall_mem_append.2 ⟨?_, ?_⟩, ?_⟩ <;>
    exact List.forall_mem_map.2 fun a _ => by
      simp [nodeKinds, serviceEntity, networkEntity, volumeEntity]

/-- A volume without a name is looked for from a service just if that has a mount without a
source. -/
theorem Service.exists_unnamed_iff (s : Service) :
    (∃ r ∈ s.sought, r.target = volumeEntity "") ↔ ∃ v ∈ s.volumes, v.source = "" := by
  constructor
  · rintro ⟨r, hr, htarget⟩
    rw [sought, List.mem_append, List.mem_append, List.mem_map, List.mem_map, List.mem_map] at hr
    rcases hr with (⟨d, -, rfl⟩ | ⟨n, -, rfl⟩) | ⟨v, hv, rfl⟩
    · simp [serviceEntity, volumeEntity] at htarget
    · simp [networkEntity, volumeEntity] at htarget
    · exact ⟨v, (List.mem_filter.1 hv).1, by simpa [volumeEntity] using htarget⟩
  · rintro ⟨v, hv, hsource⟩
    have hbind : v.isBind = false := by simp [Mount.isBind, hsource]
    refine ⟨_, List.mem_append_right _ (List.mem_map_of_mem (List.mem_filter.2 ⟨hv, ?_⟩)), ?_⟩
    · rw [hbind, Bool.not_false]
    · rw [hsource]

/-! ## Agreement -/

namespace Project

/-- What the diagram looks for from all services on, where it is declared. -/
def drawnDependencies (p : Project) : List Relation :=
  (p.composed.services.flatMap (·.sought)).filter (·.target ∈ p.composed.entities)

/-- A service mounts a volume without a source, and a volume without a name is declared. -/
def MountsUnnamed (p : Project) : Prop :=
  (∃ s ∈ p.composed.services, ∃ v ∈ s.volumes, v.source = "") ∧
    ∃ v ∈ p.composed.volumes, v.name = ""

variable {p : Project}

theorem dependencies_eq_filter (p : Project) :
    p.dependencies = p.drawnDependencies.filter (·.target ≠ volumeEntity "") := by
  have hrelations : (fun s : Service => s.relations) =
      fun s => s.sought.filter (·.target ≠ volumeEntity "") :=
    funext Service.relations_eq
  rw [dependencies_eq, drawnDependencies, hrelations, ← List.filter_flatMap, List.filter_comm]

theorem volume_mem_entities_iff (c : Compose) (name : String) :
    volumeEntity name ∈ c.entities ↔ ∃ v ∈ c.volumes, v.name = name := by
  simp [Compose.entities, serviceEntity, networkEntity, volumeEntity]

/-- The diagram draws what the graph relates just if no volume without a name is mounted. -/
theorem dependencies_eq_drawn_iff (p : Project) :
    p.dependencies = p.drawnDependencies ↔ ¬p.MountsUnnamed := by
  rw [dependencies_eq_filter, List.filter_eq_self, MountsUnnamed, ← volume_mem_entities_iff]
  constructor
  · rintro hall ⟨⟨s, hs, hmount⟩, hvolume⟩
    obtain ⟨r, hr, htarget⟩ := s.exists_unnamed_iff.2 hmount
    have hdrawn : r ∈ p.drawnDependencies :=
      List.mem_filter.2 ⟨List.mem_flatMap.2 ⟨s, hs, hr⟩, decide_eq_true (htarget ▸ hvolume)⟩
    exact of_decide_eq_true (hall r hdrawn) htarget
  · refine fun hnot r hr => decide_eq_true fun htarget => hnot ?_
    obtain ⟨hmem, hdeclared⟩ := List.mem_filter.1 hr
    obtain ⟨s, hs, hr⟩ := List.mem_flatMap.1 hmem
    exact ⟨⟨s, hs, s.exists_unnamed_iff.1 ⟨r, hr, htarget⟩⟩,
      htarget ▸ of_decide_eq_true hdeclared⟩

/-- The edges of the diagram are those of what is looked for and declared, between the nodes of the
services, networks and volumes. No two of these have one name, and no node of a Dockerfile or a stage
has one of their names. -/
structure DrawsDependencies (p : Project) (name : Entity → String) : Prop where
  nodes : ∃ files, allNodes p.diagram = files ++ p.composed.drawn name ∧
    ∀ n ∈ files, ∀ e ∈ p.composed.entities, n.id ≠ name e
  name_eq_iff : ∀ e ∈ p.composed.entities, ∀ f ∈ p.composed.entities, name e = name f ↔ e = f
  edges : p.diagram.edges = p.drawnDependencies.map (dependencyEdge name)
  joined : ∀ e ∈ p.diagram.edges, e.source ∈ (allNodes p.diagram).map (·.id) ∧
    e.target ∈ (allNodes p.diagram).map (·.id)

theorem exists_drawsDependencies (p : Project) : ∃ name, p.DrawsDependencies name := by
  obtain ⟨ids, log, h⟩ := p.exists_drawnWith
  obtain ⟨files, hnodes, -, hfiles⟩ := h.nodes
  have hknows : ∀ e ∈ p.composed.entities, ids.Knows (entityKey e) := fun e he =>
    h.knows (List.mem_append_right _ he)
  have hedges : p.diagram.edges =
      p.drawnDependencies.map (dependencyEdge fun e => ids.idOf (entityKey e)) := by
    rw [h.edges, List.flatMap_congr fun s hs => Service.edges_eq (c := p.composed)
        (hknows _ (Compose.service_mem_entities hs)) fun r hr => ?_,
      ← List.map_flatMap, ← List.filter_flatMap, drawnDependencies]
    obtain ⟨-, hkind, hscope, hne⟩ := Service.mem_sought r hr
    rw [knows_iff h.keys h.records ⟨hkind, hscope⟩, mem_entities_iff_of_kind hne]
  refine ⟨_, ⟨files, hnodes, hfiles⟩, fun e he f hf => ?_, hedges, ?_⟩
  · obtain ⟨hkind, hscope, -⟩ := kind_of_mem_composed e he
    obtain ⟨hkind', hscope', -⟩ := kind_of_mem_composed f hf
    rw [h.records.reached.idOf_eq_iff (hknows e he) (hknows f hf),
      entityKey_inj ⟨hkind, hscope⟩ ⟨hkind', hscope'⟩]
  · have hids : ∀ e ∈ p.composed.entities,
        ids.idOf (entityKey e) ∈ (allNodes p.diagram).map (·.id) := fun e he => by
      rw [hnodes, List.map_append, Compose.ids_drawn]
      exact List.mem_append_right _ (List.mem_map_of_mem he)
    rw [hedges]
    refine List.forall_mem_map.2 fun r hr => ?_
    obtain ⟨hmem, hdeclared⟩ := List.mem_filter.1 hr
    obtain ⟨s, hs, hr⟩ := List.mem_flatMap.1 hmem
    obtain ⟨hsource, -⟩ := Service.mem_sought r hr
    obtain ⟨hfrom, hto⟩ := ends_drawDependency r.kind (ids.idOf (entityKey r.source))
      (ids.idOf (entityKey r.target))
    rw [dependencyEdge, hfrom, hto, hsource]
    exact ⟨hids _ (Compose.service_mem_entities hs), hids _ (of_decide_eq_true hdeclared)⟩

/-- The edges of the diagram are those of the relations of services whose target is extracted, and
between the same ends, just if no volume without a name is mounted. -/
theorem dependencies_shown (p : Project) : ∃ name, p.DrawsDependencies name ∧
    (p.diagram.edges = p.dependencies.map (dependencyEdge name) ↔ ¬p.MountsUnnamed) := by
  obtain ⟨name, h⟩ := p.exists_drawsDependencies
  refine ⟨name, h, ?_⟩
  rw [h.edges, ← p.dependencies_eq_drawn_iff]
  refine ⟨fun hmap => ?_, fun he => by rw [he]⟩
  have hlength := congrArg List.length hmap
  rw [List.length_map, List.length_map] at hlength
  rw [dependencies_eq_filter] at hlength ⊢
  exact List.filter_sublist.eq_of_length hlength.symm

end Project

/-- A mount without a source is drawn to a volume without a name, which the graph does not relate. -/
theorem empty_mount_drawn :
    let web : Service := { name := "web", volumes := [{ target := "/data" }] }
    let p : Project := { name := "proj", compose := some { services := [web], volumes := [⟨"", none⟩] } }
    p.dependencies = [] ∧ p.diagram.edges = [{ source := "web", arrow := "--", target := "_" }] := by
  decide +kernel

end Atlas.Docker
