import Atlas.Docker.Graph
import Atlas.Docker.Report
import Atlas.Proofs.Diagram.Aliases
import Atlas.Proofs.Identifiers.Log

/-!
# Nodes of a Docker project

The diagram of a project has a node for each Dockerfile with those of its stages inside, and nodes
for the services, networks and volumes of the compose file. Every node asks for its identifier in
this order, a stage for a new one and all others for that of their key, so that the log of the calls
gives the identifiers of all nodes one after another (`Project.exists_drawnWith`).
-/

set_option linter.unusedSectionVars false

namespace Atlas.Docker

open Identifiers PlantUml

/-! ## Keys -/

/-- The key by which the node of an entity is known. -/
def entityKey (e : Entity) : String :=
  (match e.kind with
    | .composeService => "service"
    | k => k.code) ++ ":" ++ e.name

/-- The compose file of a project, or an empty one. -/
def Project.composed (p : Project) : Compose :=
  p.compose.getD {}

/-- The entities of a compose file that have nodes. -/
def Compose.entities (c : Compose) : List Entity :=
  c.services.map (fun s => serviceEntity s.name) ++ c.networks.map (fun n => networkEntity n.name) ++
    c.volumes.map fun v => volumeEntity v.name

/-- The entities of a project that have nodes, those of stages apart. -/
def Project.entities (p : Project) : List Entity :=
  p.dockerfiles.map (·.entity) ++ p.composed.entities

/-- The kinds of entities that have nodes, stages apart. -/
def nodeKinds : List EntityKind :=
  [.dockerfile, .composeService, .network, .volume]

theorem entityKey_inj {e f : Entity} (he : e.kind ∈ nodeKinds ∧ e.scope = none)
    (hf : f.kind ∈ nodeKinds ∧ f.scope = none) : entityKey e = entityKey f ↔ e = f := by
  obtain ⟨kind, name, scope⟩ := e
  obtain ⟨kind', name', scope'⟩ := f
  obtain ⟨hk, rfl⟩ := he
  obtain ⟨hk', rfl⟩ := hf
  simp only [nodeKinds, List.mem_cons, List.not_mem_nil, or_false] at hk hk'
  rcases hk with rfl | rfl | rfl | rfl <;> rcases hk' with rfl | rfl | rfl | rfl <;>
    simp [entityKey, EntityKind.code, String.ext_iff]

theorem kind_of_mem_composed {c : Compose} :
    ∀ e ∈ c.entities, e.kind ∈ nodeKinds ∧ e.scope = none ∧ e.kind ≠ .dockerfile := by
  refine List.forall_mem_append.2 ⟨List.forall_mem_append.2 ⟨?_, ?_⟩, ?_⟩ <;>
    exact List.forall_mem_map.2 fun a _ => by
      simp [nodeKinds, serviceEntity, networkEntity, volumeEntity]

theorem Compose.service_mem_entities {c : Compose} {s : Service} (hs : s ∈ c.services) :
    serviceEntity s.name ∈ c.entities :=
  List.mem_append_left _ (List.mem_append_left _ (List.mem_map_of_mem hs))

theorem Project.mem_entities_iff_of_kind {p : Project} {e : Entity} (he : e.kind ≠ .dockerfile) :
    e ∈ p.entities ↔ e ∈ p.composed.entities := by
  refine List.mem_append.trans (or_iff_right fun hmem => he ?_)
  obtain ⟨f, -, rfl⟩ := List.mem_map.1 hmem
  rfl

theorem kind_of_mem_entities {p : Project} :
    ∀ e ∈ p.entities, e.kind ∈ nodeKinds ∧ e.scope = none := by
  refine List.forall_mem_append.2 ⟨List.forall_mem_map.2 fun f _ => ?_, fun e he => ?_⟩
  · simp [nodeKinds, Dockerfile.entity]
  · exact (kind_of_mem_composed e he).imp_right And.left

/-! ## Calls -/

/-- The call for the identifier of an entity. -/
def entityCall (e : Entity) : Call :=
  .idFor (entityKey e) (Text.identifier e.name)

/-- The call for the identifier of a stage of the node `id`. -/
def stageCall (id : String) (i : ℕ) : Call :=
  .fresh (id ++ "_stage_" ++ toString i)

/-- Every call of a log is for one of some entities, or for a stage of a node that such a call is
for. -/
def CallsFor (entities : List Entity) (log : Log) : Prop :=
  ∀ e ∈ log, (∃ x ∈ entities, e.1 = entityCall x) ∨
    ∃ f ∈ log, (∃ x ∈ entities, f.1 = entityCall x) ∧ ∃ i, e.1 = stageCall f.2 i

namespace CallsFor

variable {entities entities' : List Entity} {log log' : Log}

theorem mono (h : CallsFor entities log) (hsub : entities ⊆ entities') :
    CallsFor entities' log := fun e he => by
  rcases h e he with ⟨x, hx, hcall⟩ | ⟨f, hf, ⟨x, hx, hcall⟩, hstage⟩
  · exact Or.inl ⟨x, hsub hx, hcall⟩
  · exact Or.inr ⟨f, hf, ⟨x, hsub hx, hcall⟩, hstage⟩

theorem append (h : CallsFor entities log) (h' : CallsFor entities' log') :
    CallsFor (entities ++ entities') (log ++ log') := by
  refine List.forall_mem_append.2 ⟨fun e he => ?_, fun e he => ?_⟩
  · exact (h.mono (List.subset_append_left _ _) e he).imp_right fun ⟨f, hf, hstage⟩ =>
      ⟨f, List.mem_append_left _ hf, hstage⟩
  · exact (h'.mono (List.subset_append_right _ _) e he).imp_right fun ⟨f, hf, hstage⟩ =>
      ⟨f, List.mem_append_right _ hf, hstage⟩

/-- The calls are those for the entities, one after another. -/
theorem of_calls (h : log.map Prod.fst = entities.map entityCall) :
    CallsFor entities log ∧ log.keys = entities.map entityKey := by
  refine ⟨fun e he => Or.inl ?_, ?_⟩
  · have hmem : e.1 ∈ entities.map entityCall := h ▸ List.mem_map_of_mem he
    obtain ⟨x, hx, hcall⟩ := List.mem_map.1 hmem
    exact ⟨x, hx, hcall.symm⟩
  · have hkeys : log.keys = (log.map Prod.fst).filterMap Call.key? := by
      rw [List.filterMap_map]
      rfl
    have hkey : Call.key? ∘ entityCall = some ∘ entityKey := rfl
    rw [hkeys, h, List.filterMap_map, hkey, List.filterMap_eq_map]

end CallsFor

/-! ## Nodes of one kind -/

theorem exists_namedNodes {α : Type} {ids : Identifiers} (h : Reached ids) (kind : String)
    (name : α → String) (node : α → String → Node) (hnode : ∀ a id, (node a id).id = id)
    (as : List α) : ∃ log, Logs ids log (namedNodes kind name node ids as).2 ∧
      log.map Prod.fst =
        as.map (fun a => .idFor (kind ++ ":" ++ name a) (Text.identifier (name a))) ∧
      log.answers = (namedNodes kind name node ids as).1.map (·.id) ∧
      Names ids (namedNodes kind name node ids as).2 (fun a => kind ++ ":" ++ name a) node as
        (namedNodes kind name node ids as).1 := by
  induction as generalizing ids with
  | nil => exact ⟨[], .nil, rfl, rfl, .nil h⟩
  | cons a as ih =>
    have hcall := (h.idFor (kind ++ ":" ++ name a) (Text.identifier (name a))).2
    obtain ⟨log, hlog, hcalls, hanswers, hnames⟩ := ih hcall.reached
    refine ⟨_, .cons (.idFor (kind ++ ":" ++ name a) (Text.identifier (name a))) hlog, ?_, ?_,
      .cons h hnames⟩
    · rw [List.map_cons, List.map_cons, hcalls]
    · rw [namedNodes, List.map_cons, ← hanswers, hnode]
      rfl

/-! ## Dockerfiles -/

theorem inline_stage (s : Stage) {id : String} (hid : IsIdentifier id) : Inline (s.node id) := by
  have hbase : Inline { shape := .component, id, label := s.label } :=
    ⟨hid, nofun, rfl, nofun, nofun⟩
  exact (hbase.addNote rfl).addNote rfl

/-- The nodes of stages ask for new identifiers and have nothing inside but notes. -/
structure DrawsStages (id : String) (ids ids' : Identifiers) (ss : List Stage) (nodes : List Node) :
    Prop where
  logs : ∃ log, Logs ids log ids' ∧ log.map Prod.fst = ss.map (fun s => stageCall id s.index) ∧
    log.answers = nodes.map (·.id)
  labels : nodes.map (·.label) = ss.map Stage.label
  inline : ∀ n ∈ nodes, Inline n
  children : ∀ n ∈ nodes, n.children = []

theorem drawsStages (id : String) (ids : Identifiers) (ss : List Stage) :
    DrawsStages id ids (stageNodes id ids ss).2 ss (stageNodes id ids ss).1 := by
  induction ss generalizing ids with
  | nil => exact ⟨⟨[], .nil, rfl, rfl⟩, rfl, List.forall_mem_nil _, List.forall_mem_nil _⟩
  | cons s ss ih =>
    have hid := isIdentifier_fresh ids (id ++ "_stage_" ++ toString s.index)
    obtain ⟨⟨log, hlog, hcalls, hanswers⟩, hlabels, hinline, hchildren⟩ :=
      ih (ids.fresh (id ++ "_stage_" ++ toString s.index)).2
    refine ⟨⟨_, .cons (stageCall id s.index) hlog, ?_, ?_⟩, ?_,
      List.forall_mem_cons.2 ⟨inline_stage s hid, hinline⟩,
      List.forall_mem_cons.2 ⟨by simp [Stage.node], hchildren⟩⟩
    · rw [List.map_cons, List.map_cons, hcalls]
    · rw [stageNodes, List.map_cons, ← hanswers]
      simp [Log.answers, Stage.node, Identifiers.answer, stageCall]
    · rw [stageNodes, List.map_cons, hlabels, List.map_cons]
      simp [Stage.node]

theorem nodesOf_of_children {n : Node} (h : n.children = []) : nodesOf n = [n] := by
  rw [nodesOf_eq, h, List.flatMap_nil]

/-- The nodes of Dockerfiles ask for the identifiers of their keys, each before its stages, and have
nothing inside but those and notes. -/
structure DrawsFiles (ids ids' : Identifiers) (fs : List Dockerfile) (nodes : List Node) :
    Prop where
  reached : Reached ids'
  logs : ∃ log, Logs ids log ids' ∧ CallsFor (fs.map (·.entity)) log ∧
    log.keys = fs.map (fun f => entityKey f.entity) ∧
    log.answers = (nodes.flatMap nodesOf).map (·.id)
  labels : (nodes.flatMap nodesOf).map (·.label) =
    fs.flatMap fun f => f.path :: f.stages.map Stage.label
  inline : ∀ n ∈ nodes, Inline n

section File

variable (ids : Identifiers) (f : Dockerfile)

/-- The nodes of the stages of a Dockerfile, after its own identifier. -/
def Dockerfile.stageNodes (ids : Identifiers) (f : Dockerfile) : List Node × Identifiers :=
  let (id, ids) := ids.answer (entityCall f.entity)
  Docker.stageNodes id ids f.stages

theorem id_node_file : (f.node ids).1.id = (ids.answer (entityCall f.entity)).1 := by
  simp only [Dockerfile.node, Node.id_addNote, Node.foldl_addChild]
  rfl

theorem label_node_file : (f.node ids).1.label = f.path := by
  simp only [Dockerfile.node, Node.label_addNote, Node.foldl_addChild]

theorem children_node_file : (f.node ids).1.children = (f.stageNodes ids).1 := by
  simp only [Dockerfile.node, Node.children_addNote, Node.foldl_addChild]
  rfl

theorem inline_node_file (h : Reached ids) : Inline (f.node ids).1 := by
  have hid := (h.idFor (entityKey f.entity) (Text.identifier f.path)).1
  have hbase : Inline { shape := .component, id := (ids.answer (entityCall f.entity)).1, label := f.path } :=
    ⟨hid, nofun, rfl, nofun, nofun⟩
  have hstages := (drawsStages (ids.answer (entityCall f.entity)).1 (ids.answer (entityCall f.entity)).2 f.stages).inline
  exact (((((hbase.addNote rfl).foldl_addChild hstages).addNote rfl).addNote rfl).addNote
    rfl).addNote rfl

theorem drawsFiles_single (h : Reached ids) :
    DrawsFiles ids (f.node ids).2 [f] [(f.node ids).1] := by
  have hstages : DrawsStages (ids.answer (entityCall f.entity)).1
      (ids.answer (entityCall f.entity)).2 (f.stageNodes ids).2 f.stages (f.stageNodes ids).1 :=
    drawsStages _ _ f.stages
  obtain ⟨⟨log, hlog, hcalls, hanswers⟩, hlabels, -, hchildren⟩ := hstages
  have hstage : ∀ e ∈ log, ∃ i, e.1 = stageCall (ids.answer (entityCall f.entity)).1 i := fun e he => by
    have hmem : e.1 ∈ log.map Prod.fst := List.mem_map_of_mem he
    rw [hcalls] at hmem
    obtain ⟨s, -, hcall⟩ := List.mem_map.1 hmem
    exact ⟨s.index, hcall.symm⟩
  have hkeys : log.keys = [] := List.filterMap_eq_nil_iff.2 fun e he => by
    obtain ⟨i, hcall⟩ := hstage e he
    rw [hcall]
    rfl
  have hnodes : [(f.node ids).1].flatMap nodesOf = (f.node ids).1 :: (f.stageNodes ids).1 := by
    rw [List.flatMap_singleton, nodesOf_eq, children_node_file,
      List.flatMap_congr fun n hn => nodesOf_of_children (hchildren n hn), List.flatMap_singleton']
  refine ⟨?_, ⟨_, .cons (entityCall f.entity) hlog, ?_, congrArg _ hkeys, ?_⟩, ?_,
    List.forall_mem_singleton.2 (inline_node_file ids f h)⟩
  · obtain ⟨before, hbefore⟩ := h
    exact ⟨_, (Logs.cons (entityCall f.entity) hlog).records hbefore⟩
  · have hown : ∃ x ∈ [f].map (·.entity), entityCall f.entity = entityCall x :=
      ⟨_, List.mem_singleton_self _, rfl⟩
    refine List.forall_mem_cons.2 ⟨Or.inl hown, fun e he => Or.inr ?_⟩
    exact ⟨_, List.mem_cons_self, hown, hstage e he⟩
  · rw [hnodes, List.map_cons, id_node_file, ← hanswers]
    rfl
  · rw [hnodes, List.map_cons, label_node_file, List.flatMap_singleton, hlabels]

end File

theorem DrawsFiles.append {ids ids' ids'' : Identifiers} {fs fs' : List Dockerfile}
    {nodes nodes' : List Node} (h : DrawsFiles ids ids' fs nodes)
    (h' : DrawsFiles ids' ids'' fs' nodes') :
    DrawsFiles ids ids'' (fs ++ fs') (nodes ++ nodes') := by
  obtain ⟨log, hlog, hcalls, hkeys, hanswers⟩ := h.logs
  obtain ⟨log', hlog', hcalls', hkeys', hanswers'⟩ := h'.logs
  refine ⟨h'.reached, ⟨_, hlog.append hlog', ?_, ?_, ?_⟩, ?_,
    List.forall_mem_append.2 ⟨h.inline, h'.inline⟩⟩
  · rw [List.map_append]
    exact hcalls.append hcalls'
  · rw [Log.keys_append, hkeys, hkeys', List.map_append]
  · rw [Log.answers_append, hanswers, hanswers', List.flatMap_append, List.map_append]
  · rw [List.flatMap_append, List.map_append, h.labels, h'.labels, List.flatMap_append]

theorem drawsFiles {ids : Identifiers} (h : Reached ids) (fs : List Dockerfile) :
    DrawsFiles ids (dockerfileNodes ids fs).2 fs (dockerfileNodes ids fs).1 := by
  induction fs generalizing ids with
  | nil => exact ⟨h, ⟨[], .nil, List.forall_mem_nil _, rfl, rfl⟩, rfl, List.forall_mem_nil _⟩
  | cons f fs ih =>
    have hf := drawsFiles_single ids f h
    exact hf.append (ih hf.reached)

/-! ## The diagram -/

/-- The diagram has a container for the Dockerfiles and one for the compose file, those without nodes
left out. -/
theorem Project.diagram_eq (p : Project) :
    let files := dockerfileNodes .empty p.dockerfiles
    let parts := p.composed.parts files.2
    p.diagram = { title := "Docker Project: " ++ p.name, preamble,
                  containers := [⟨"Dockerfiles", files.1, []⟩, parts.1].filter (!·.isEmpty),
                  edges := parts.2 } := by
  intro files parts
  cases hc : p.compose with
  | none =>
    have hparts : parts = (⟨"Docker Compose", [], []⟩, []) := by
      simp only [parts, composed, hc]
      rfl
    rw [hparts, diagram, hc]
    exact foldl_addContainer [⟨"Dockerfiles", files.1, []⟩] _
  | some c =>
    have hparts : parts = c.parts files.2 := by simp only [parts, composed, hc, Option.getD_some]
    rw [hparts, diagram, hc]
    have hadded := foldl_addContainer [⟨"Dockerfiles", files.1, []⟩, (c.parts files.2).1]
      { title := "Docker Project: " ++ p.name, preamble }
    rw [List.foldl_cons, List.foldl_cons, List.foldl_nil] at hadded
    dsimp only
    rw [hadded]
    rfl

theorem Project.nodes_diagram (p : Project) :
    let files := dockerfileNodes .empty p.dockerfiles
    Mermaid.nodes p.diagram =
      files.1 ++ Mermaid.containerNodes (p.composed.parts files.2).1 := by
  intro files
  rw [Mermaid.nodes, diagram_eq]
  dsimp only
  rw [containersNodes_filter, List.append_nil]
  simp [Mermaid.containersNodes, Mermaid.containerNodes, files]

/-- The nodes of a compose file, where each entity has a name. -/
def Compose.drawn (c : Compose) (name : Entity → String) : List Node :=
  c.services.map (fun s => s.node (name (serviceEntity s.name))) ++
    c.networks.map (fun n => networkNode n (name (networkEntity n.name))) ++
    c.volumes.map fun v => volumeNode v (name (volumeEntity v.name))

theorem id_service (s : Service) (id : String) : (s.node id).id = id := by
  simp [Service.node]

theorem id_network (n : Shared) (id : String) : (networkNode n id).id = id := by
  simp [networkNode]

theorem id_volume (v : Shared) (id : String) : (volumeNode v id).id = id := by
  simp [volumeNode]

theorem label_service (s : Service) (id : String) : (s.node id).label = s.name := by
  simp [Service.node]

theorem label_network (n : Shared) (id : String) : (networkNode n id).label = n.name := by
  simp [networkNode]

theorem label_volume (v : Shared) (id : String) : (volumeNode v id).label = v.name := by
  simp [volumeNode]

theorem Compose.ids_drawn (c : Compose) (name : Entity → String) :
    (c.drawn name).map (·.id) = c.entities.map name := by
  simp only [Compose.drawn, Compose.entities, List.map_append, List.map_map, Function.comp_def,
    id_service, id_network, id_volume]

theorem Compose.labels_drawn (c : Compose) (name : Entity → String) :
    (c.drawn name).map (·.label) = c.entities.map (·.name) := by
  simp only [Compose.drawn, Compose.entities, List.map_append, List.map_map, Function.comp_def,
    label_service, label_network, label_volume, serviceEntity, networkEntity, volumeEntity]

theorem exists_drawsCompose {ids : Identifiers} (h : Reached ids) (c : Compose) :
    ∃ ids' log, Logs ids log ids' ∧ log.map Prod.fst = c.entities.map entityCall ∧
      Mermaid.containerNodes (c.parts ids).1 = c.drawn (fun e => ids'.idOf (entityKey e)) ∧
      log.answers = (Mermaid.containerNodes (c.parts ids).1).map (·.id) ∧
      (c.parts ids).2 = c.services.flatMap (·.edges ids') := by
  obtain ⟨log₁, hlog₁, hcalls₁, hanswers₁, hservices⟩ :=
    exists_namedNodes h "service" Service.name Service.node id_service c.services
  set services := namedNodes "service" Service.name Service.node ids c.services
  obtain ⟨log₂, hlog₂, hcalls₂, hanswers₂, hnetworks⟩ :=
    exists_namedNodes hservices.continues.reached "network" Shared.name networkNode id_network
      c.networks
  set networks := namedNodes "network" Shared.name networkNode services.2 c.networks
  obtain ⟨log₃, hlog₃, hcalls₃, hanswers₃, hvolumes⟩ :=
    exists_namedNodes hnetworks.continues.reached "volume" Shared.name volumeNode id_volume c.volumes
  set volumes := namedNodes "volume" Shared.name volumeNode networks.2 c.volumes
  have hnodes : Mermaid.containerNodes (c.parts ids).1 = services.1 ++ networks.1 ++ volumes.1 := by
    let inner : List Container := [⟨"Networks", networks.1, []⟩, ⟨"Volumes", volumes.1, []⟩]
    have hinner : Mermaid.containersNodes inner = networks.1 ++ volumes.1 := by
      simp [inner, Mermaid.containersNodes, Mermaid.containerNodes]
    have hparts : ∃ title, (c.parts ids).1 = ⟨title, services.1, inner.filter (!·.isEmpty)⟩ :=
      ⟨_, rfl⟩
    obtain ⟨title, hparts⟩ := hparts
    rw [hparts, Mermaid.containerNodes, containersNodes_filter, hinner, List.append_assoc]
  refine ⟨volumes.2, _, (hlog₁.append hlog₂).append hlog₃, ?_, ?_, ?_, rfl⟩
  · rw [List.map_append, List.map_append, hcalls₁, hcalls₂, hcalls₃, Compose.entities]
    simp only [List.map_append, List.map_map]
    rfl
  · rw [hnodes, (hservices.trans (hnetworks.continues.trans hvolumes.continues)).eq_map,
      (hnetworks.trans hvolumes.continues).eq_map, hvolumes.eq_map]
    rfl
  · rw [hnodes, Log.answers_append, Log.answers_append, hanswers₁, hanswers₂, hanswers₃,
      List.map_append, List.map_append]

theorem inline_service (s : Service) {id : String} (hid : IsIdentifier id) : Inline (s.node id) := by
  have hbase : Inline { shape := .component, id, label := s.name } :=
    ⟨hid, nofun, rfl, nofun, nofun⟩
  exact ((hbase.addNote rfl).addNote rfl).addNote rfl

theorem inline_network (n : Shared) {id : String} (hid : IsIdentifier id) :
    Inline (networkNode n id) := by
  have hbase : Inline
      { shape := .component, id, label := n.name, stereotype := some "network" } :=
    ⟨hid, by rintro _ ⟨⟩; decide, rfl, nofun, nofun⟩
  exact hbase.addNote rfl

theorem inline_volume (v : Shared) {id : String} (hid : IsIdentifier id) :
    Inline (volumeNode v id) := by
  have hbase : Inline { shape := .database, id, label := v.name } :=
    ⟨hid, nofun, rfl, nofun, nofun⟩
  exact hbase.addNote rfl

theorem Compose.inline_drawn {c : Compose} {name : Entity → String}
    (h : ∀ e ∈ c.entities, IsIdentifier (name e)) : ∀ n ∈ c.drawn name, Inline n := by
  obtain ⟨hfirst, hvolumes⟩ := List.forall_mem_append.1 h
  obtain ⟨hservices, hnetworks⟩ := List.forall_mem_append.1 hfirst
  rw [List.forall_mem_map] at hservices hnetworks hvolumes
  refine List.forall_mem_append.2 ⟨List.forall_mem_append.2 ⟨?_, ?_⟩, ?_⟩
  · exact List.forall_mem_map.2 fun s hs => inline_service s (hservices s hs)
  · exact List.forall_mem_map.2 fun n hn => inline_network n (hnetworks n hn)
  · exact List.forall_mem_map.2 fun v hv => inline_volume v (hvolumes v hv)

theorem Compose.nodesOf_drawn (c : Compose) (name : Entity → String) :
    (c.drawn name).flatMap nodesOf = c.drawn name := by
  have hchildren : ∀ n ∈ c.drawn name, n.children = [] := by
    refine List.forall_mem_append.2 ⟨List.forall_mem_append.2 ⟨?_, ?_⟩, ?_⟩
    · exact List.forall_mem_map.2 fun s _ => by simp [Service.node]
    · exact List.forall_mem_map.2 fun n _ => by simp [networkNode]
    · exact List.forall_mem_map.2 fun v _ => by simp [volumeNode]
  rw [List.flatMap_congr fun n hn => nodesOf_of_children (hchildren n hn), List.flatMap_singleton']

/-- The identifiers with which a diagram is drawn, and the log of the calls for them. -/
structure Project.DrawnWith (p : Project) (ids : Identifiers) (log : Log) : Prop where
  records : Records log ids
  made : log.Made
  calls : CallsFor p.entities log
  keys : log.keys = p.entities.map entityKey
  answers : log.answers = (allNodes p.diagram).map (·.id)
  nodes : ∃ files, allNodes p.diagram =
      files ++ p.composed.drawn (fun e => ids.idOf (entityKey e)) ∧
    files.map (·.label) = p.dockerfiles.flatMap (fun f => f.path :: f.stages.map Stage.label) ∧
    ∀ n ∈ files, ∀ e ∈ p.composed.entities, n.id ≠ ids.idOf (entityKey e)
  edges : p.diagram.edges = p.composed.services.flatMap (·.edges ids)
  inline : ∀ n ∈ Mermaid.nodes p.diagram, Inline n

namespace Project

variable {p : Project} {ids : Identifiers} {log : Log}

/-- A key is known just if it is that of an entity. -/
theorem knows_iff (hkeys : log.keys = p.entities.map entityKey) (h : Records log ids) {e : Entity}
    (he : e.kind ∈ nodeKinds ∧ e.scope = none) : ids.Knows (entityKey e) ↔ e ∈ p.entities := by
  rw [h.knows_iff, hkeys, List.mem_map]
  refine ⟨fun ⟨f, hf, hkey⟩ => ?_, fun hmem => ⟨e, hmem, rfl⟩⟩
  exact (entityKey_inj (kind_of_mem_entities f hf) he).1 hkey ▸ hf

theorem DrawnWith.knows (h : p.DrawnWith ids log) {e : Entity} (he : e ∈ p.entities) :
    ids.Knows (entityKey e) :=
  (knows_iff h.keys h.records (kind_of_mem_entities e he)).2 he

theorem exists_drawnWith (p : Project) : ∃ ids log, p.DrawnWith ids log := by
  have hfiles := drawsFiles reached_empty p.dockerfiles
  obtain ⟨log, hlog, hcalls, hkeys, hanswers⟩ := hfiles.logs
  set files := dockerfileNodes .empty p.dockerfiles
  obtain ⟨ids, log', hlog', hcomposed, hnodes, hanswers', hedges⟩ :=
    exists_drawsCompose hfiles.reached p.composed
  obtain ⟨hcalls', hkeys'⟩ := CallsFor.of_calls hcomposed
  have hall := p.nodes_diagram
  have hrecords := (hlog.append hlog').records_empty
  have hentities : (log ++ log').keys = p.entities.map entityKey := by
    rw [Log.keys_append, hkeys, hkeys', entities, List.map_append, List.map_map]
    rfl
  have hdrawn : allNodes p.diagram = files.1.flatMap nodesOf ++
      p.composed.drawn (fun e => ids.idOf (entityKey e)) := by
    rw [allNodes, hall, hnodes, List.flatMap_append, Compose.nodesOf_drawn]
  have hknows : ∀ e ∈ p.composed.entities, ids.Knows (entityKey e) := fun e he =>
    (knows_iff hentities hrecords (kind_of_mem_entities e (List.mem_append_right _ he))).2
      (List.mem_append_right _ he)
  refine ⟨ids, log ++ log', hrecords, (hlog.append hlog').made_empty, hcalls.append hcalls',
    hentities, ?_, ⟨_, hdrawn, hfiles.labels, ?_⟩, ?_, ?_⟩
  · rw [hdrawn, Log.answers_append, hanswers, hanswers', hnodes, List.map_append]
  · intro n hn e he hid
    have hmem : n.id ∈ log.answers := hanswers ▸ List.mem_map_of_mem hn
    obtain ⟨call, hcall, hanswer⟩ := List.mem_map.1 hmem
    have hkey := (hrecords.idOf_eq_iff (List.mem_append_left _ hcall) (hknows e he)).1
      (hid.symm.trans hanswer.symm)
    have hfile : entityKey e ∈ log.keys := List.mem_filterMap.2 ⟨call, hcall, hkey⟩
    rw [hkeys] at hfile
    obtain ⟨f, -, hf⟩ := List.mem_map.1 hfile
    obtain ⟨hkind, hscope, hne⟩ := kind_of_mem_composed e he
    have hentity := (entityKey_inj (by simp [nodeKinds, Dockerfile.entity]) ⟨hkind, hscope⟩).1 hf
    exact hne (by rw [← hentity, Dockerfile.entity])
  · rw [diagram_eq]
    exact hedges
  · rw [hall, hnodes]
    refine List.forall_mem_append.2 ⟨hfiles.inline, Compose.inline_drawn fun e he => ?_⟩
    exact hrecords.isIdentifier_idOf (hknows e he)

end Project

end Atlas.Docker
