import Atlas.Laravel.Graph
import Atlas.Laravel.Report
import Atlas.Laravel.Scan
import Atlas.Proofs.Diagram.Nodes
import Atlas.Proofs.Graph.Growth
import Atlas.Proofs.Identifiers.Log

/-!
# Controllers of a Laravel project

The diagram of a project draws its classes with the identifiers of their keys, first those that are
known by their names and the routes in the end (`exists_names_classes`). The edges of relationships
and of controls join the identifiers of two names (`joins_relationshipEdges`, `joins_controlEdges`),
and the edge of a route leads from the new identifier of the route to that of a name
(`exists_drawsRoutes`).

A controller is known by its name, which is the stem of its file (`controllers_projectOf`). The
graph extracts one entity for the controllers of one name (`Project.controllers_graph`). The diagram
draws a class for each of them, with one identifier for those of one name, which no other class has
(`Project.exists_drawsControllers`). So controllers are kept apart just if no two files have the
same stem, in whatever directories they are (`Project.keepsControllers_iff`).
-/

set_option linter.unusedSectionVars false

namespace Atlas.Laravel

open Identifiers PlantUml

/-! ## Classes that are known by their names -/

/-- The key of a class. -/
def classKey (kind name : String) : String :=
  kind ++ ":" ++ name

theorem classKey_inj {kind s t : String} : classKey kind s = classKey kind t ↔ s = t := by
  simp [classKey]

/-- The key of a class, and how the class is drawn with an identifier. -/
abbrev ClassItem := String × (String → Node)

/-- The classes of things of one kind. -/
def classItems {α : Type} (kind : String) (name : α → String) (node : α → String → Node)
    (items : List α) : List ClassItem :=
  items.map fun a => (classKey kind (name a), node a)

/-- The classes of a project that are known by their names, kind by kind. -/
def Project.classes (p : Project) : List ClassItem :=
  classItems "model" Model.name Model.node p.models ++
    classItems "controller" Controller.name Controller.node p.controllers ++
    (classItems "middleware" Middleware.name Middleware.node p.middleware ++
      classItems "provider" Provider.name Provider.node p.providers)

theorem names_classNodes {α : Type} {ids : Identifiers} (h : Reached ids) (kind : String)
    (name : α → String) (node : α → String → Node) (items : List α) :
    Names ids (classNodes kind name node ids items).2 Prod.fst Prod.snd
      (classItems kind name node items) (classNodes kind name node ids items).1 :=
  .map (names_foldl h (fun a => classKey kind (name a)) name node items rfl)

/-! ## Edges between names -/

/-- The relationships of some models, each with its model. -/
def relationships (ms : List Model) : List (Model × Relationship) :=
  ms.flatMap fun m => m.relationships.map (m, ·)

/-- The models that the controllers of a project work with, each with its controller. -/
def Project.controls (p : Project) : List (Controller × String) :=
  p.controllers.flatMap fun c => (controlledModels c p.models).map (c, ·)

theorem joins_relationshipEdges {ids : Identifiers} (h : Reached ids) (ms : List Model) :
    Joins ids (relationshipEdges ids ms).2 (fun q => classKey "model" q.1.name)
      (fun q => classKey "model" q.2.relatedModel) (fun q => q.2.edge) (relationships ms)
      (relationshipEdges ids ms).1 :=
  joins_foldl h (fun m : Model => classKey "model" m.name) Model.name Model.relationships
    (fun r : Relationship => classKey "model" r.relatedModel) Relationship.relatedModel
    (fun q => q.2.edge) ms rfl

/-- The edge from a controller to a model. -/
def controlEdge (source target : String) : Edge :=
  { source, arrow := "..>", target, label := some "controls" }

theorem joins_controlEdges {ids : Identifiers} (h : Reached ids) (p : Project) :
    Joins ids (controlEdges ids p).2 (fun q => classKey "controller" q.1.name)
      (fun q => classKey "model" q.2) (fun _ => controlEdge) p.controls (controlEdges ids p).1 :=
  joins_foldl h (fun c : Controller => classKey "controller" c.name) Controller.name
    (fun c => controlledModels c p.models) (classKey "model") id (fun _ => controlEdge)
    p.controllers rfl

/-! ## Routes -/

/-- The edge from a route to what handles it. -/
def Route.edge (r : Route) (source target : String) : Edge :=
  { source, arrow := "..>", target, label := r.action }

/-- Routes with their identifiers, which were asked for without a key, and edges to the identifiers
of their controllers. -/
structure DrawsRoutes (ids ids' : Identifiers) (rs : List Route) (routeIds : List String)
    (nodes : List Node) (edges : List Edge) : Prop where
  continues : Continues ids ids'
  logs : ∃ log, Logs ids log ids' ∧ log.unkeyed = routeIds
  length : rs.length = routeIds.length
  knows : ∀ r ∈ rs, ∀ c ∈ r.controller, ids'.Knows (classKey "controller" c)
  nodes : nodes = (rs.zip routeIds).map fun q => q.1.node q.2
  edges : edges = (rs.zip routeIds).flatMap fun q => q.1.controller.toList.map fun c =>
    q.1.edge q.2 (ids'.idOf (classKey "controller" c))

namespace DrawsRoutes

variable {ids ids' ids'' : Identifiers} {rs rs' : List Route} {routeIds routeIds' : List String}
  {nodes nodes' : List Node} {edges edges' : List Edge}

theorem nil (h : Reached ids) : DrawsRoutes ids ids [] [] [] [] :=
  ⟨.refl h, ⟨[], .nil, rfl⟩, rfl, List.forall_mem_nil _, rfl, rfl⟩

theorem append (h : DrawsRoutes ids ids' rs routeIds nodes edges)
    (h' : DrawsRoutes ids' ids'' rs' routeIds' nodes' edges') :
    DrawsRoutes ids ids'' (rs ++ rs') (routeIds ++ routeIds') (nodes ++ nodes')
      (edges ++ edges') := by
  obtain ⟨log, hlog, hids⟩ := h.logs
  obtain ⟨log', hlog', hids'⟩ := h'.logs
  have hkept : edges = (rs.zip routeIds).flatMap fun q => q.1.controller.toList.map fun c =>
      q.1.edge q.2 (ids''.idOf (classKey "controller" c)) := by
    rw [h.edges]
    refine List.flatMap_congr fun q hq => List.map_congr_left fun c hc => ?_
    rw [h'.continues.idOf_eq (h.knows _ (List.of_mem_zip hq).1 c (Option.mem_toList.1 hc))]
  refine ⟨h.continues.trans h'.continues, ⟨log ++ log', hlog.append hlog', ?_⟩, ?_, ?_, ?_, ?_⟩
  · rw [Log.unkeyed_append, hids, hids']
  · rw [List.length_append, List.length_append, h.length, h'.length]
  · exact List.forall_mem_append.2
      ⟨fun r hr c hc => h'.continues.knows (h.knows r hr c hc), h'.knows⟩
  · rw [List.zip_append h.length, List.map_append, ← h.nodes, ← h'.nodes]
  · rw [List.zip_append h.length, List.flatMap_append, ← hkept, ← h'.edges]

theorem single_none (h : Reached ids) {r : Route} (hr : r.controller = none) (base : String) :
    DrawsRoutes ids (ids.fresh base).2 [r] [(ids.fresh base).1] [r.node (ids.fresh base).1] [] := by
  refine ⟨(h.fresh base).1, ⟨_, .single ids (.fresh base), rfl⟩, rfl, ?_, rfl, ?_⟩
  · rw [List.forall_mem_singleton, hr]
    exact nofun
  · simp [hr]

theorem single_some (h : Reached ids) {r : Route} {c : String} (hr : r.controller = some c)
    (base : String) :
    let new := ids.fresh base
    let target := new.2.idFor (classKey "controller" c) c
    DrawsRoutes ids target.2 [r] [new.1] [r.node new.1] [r.edge new.1 target.1] := by
  intro new target
  have hnew := (h.fresh base).1
  obtain ⟨hk, hid⟩ := knows_idFor new.2 (classKey "controller" c) c
  refine ⟨hnew.trans (hnew.reached.idFor _ _).2, ⟨_, .cons (.fresh base)
    (.single new.2 (.idFor (classKey "controller" c) c)), rfl⟩, rfl, ?_, rfl, ?_⟩
  · rw [List.forall_mem_singleton, hr]
    rintro _ ⟨⟩
    exact hk
  · simp [hr, target, hid]

/-- Routes have identifiers that differ from each other and from those of all keys. -/
theorem nodup_idOf_ne (h : DrawsRoutes ids ids' rs routeIds nodes edges) (hids : Reached ids) :
    routeIds.Nodup ∧ ∀ id ∈ routeIds, ∀ key, ids'.Knows key → ids'.idOf key ≠ id := by
  obtain ⟨before, hbefore⟩ := hids
  obtain ⟨log, hlog, rfl⟩ := h.logs
  have hall := hlog.records hbefore
  have hnodup := hall.nodup_unkeyed
  rw [Log.unkeyed_append] at hnodup
  refine ⟨(List.nodup_append.1 hnodup).2.1, fun id hid key hk => hall.idOf_ne ?_ hk⟩
  rw [Log.unkeyed_append]
  exact List.mem_append_right _ hid

/-- Routes are drawn with identifiers that are those of no key before them. -/
theorem forall_mem_nodes (h : DrawsRoutes ids ids' rs routeIds nodes edges) (hids : Reached ids) :
    ∀ n ∈ nodes, ∃ r id, n = Route.node r id ∧ ∀ key, ids.Knows key → ids.idOf key ≠ id := by
  rw [h.nodes]
  refine List.forall_mem_map.2 fun q hq => ⟨q.1, q.2, rfl, fun key hk => ?_⟩
  rw [← h.continues.idOf_eq hk]
  exact (h.nodup_idOf_ne hids).2 _ (List.of_mem_zip hq).2 key (h.continues.knows hk)

end DrawsRoutes

theorem exists_drawsRoutes {ids : Identifiers} (h : Reached ids) (rs : List Route) :
    ∃ routeIds, DrawsRoutes ids (routeParts ids rs).2.2 rs routeIds (routeParts ids rs).1
      (routeParts ids rs).2.1 := by
  induction rs using List.reverseRecOn with
  | nil => exact ⟨[], .nil h⟩
  | append_singleton rs r ih =>
    unfold routeParts at ih ⊢
    rw [List.foldl_append, List.foldl_cons, List.foldl_nil]
    generalize rs.foldl _ _ = before at ih ⊢
    obtain ⟨nodes, edges, ids'⟩ := before
    obtain ⟨routeIds, hbefore⟩ := ih
    cases hr : r.controller with
    | none =>
      have hall := hbefore.append (.single_none hbefore.continues.reached hr ("route_" ++ r.uri))
      rw [List.append_nil] at hall
      exact ⟨_, hall⟩
    | some c =>
      exact ⟨_, hbefore.append (.single_some hbefore.continues.reached hr ("route_" ++ r.uri))⟩

/-! ## The diagram -/

/-- A diagram starts with the classes that are known by their names. The edges come after these, and
the routes after those. -/
theorem exists_names_classes (p : Project) : ∃ ids nodes,
    Names .empty ids Prod.fst Prod.snd p.classes nodes ∧
      let relationships := relationshipEdges ids p.models
      let controls := controlEdges relationships.2 p
      let routes := routeParts controls.2 p.routes
      drawnNodes p.diagram = nodes ++ routes.1 ∧
        p.diagram.edges = relationships.1 ++ controls.1 ++ routes.2.1 := by
  have hmodels := names_classNodes reached_empty "model" Model.name Model.node p.models
  set models := classNodes "model" Model.name Model.node .empty p.models
  have hcontrollers := names_classNodes hmodels.continues.reached "controller" Controller.name
    Controller.node p.controllers
  set controllers := classNodes "controller" Controller.name Controller.node models.2 p.controllers
  have hmiddleware := names_classNodes hcontrollers.continues.reached "middleware" Middleware.name
    Middleware.node p.middleware
  set middleware := classNodes "middleware" Middleware.name Middleware.node controllers.2
    p.middleware
  have hproviders := names_classNodes hmiddleware.continues.reached "provider" Provider.name
    Provider.node p.providers
  set providers := classNodes "provider" Provider.name Provider.node middleware.2 p.providers
  refine ⟨providers.2, _, (hmodels.append hcontrollers).append (hmiddleware.append hproviders), ?_⟩
  intro relationships controls routes
  let groups := [("Models", models.1), ("Controllers", controllers.1),
    ("Middleware", middleware.1), ("Providers", providers.1), ("Routes", routes.1)]
  have hgroups : drawnNodes p.diagram = groups.flatMap Prod.snd := drawnNodes_groups groups rfl rfl
  refine ⟨?_, edges_groups groups _⟩
  rw [hgroups]
  simp only [groups, List.flatMap_cons, List.flatMap_nil, List.append_nil, List.append_assoc]

/-! ## Files of controllers -/

/-- The files of controllers, the one of their base class left out. -/
def controllerSources (root : FileTree) : List Source :=
  (phpSources root "app/Http/Controllers" true).filter (·.stem ≠ "Controller")

/-- A controller has the name and the path of its file, whatever the rules read from that. -/
theorem path_name_controllerRules (text : String) (c : Controller) :
    ((controllerRules.apply text c).path, (controllerRules.apply text c).name) =
      (c.path, c.name) := by
  refine RuleSet.apply_keeps (f := fun c : Controller => (c.path, c.name)) ?_ text c
  simp [controllerRules, apply_ite Controller.path, apply_ite Controller.name]

theorem controllers_projectOf (name : String) (root : FileTree) :
    (projectOf name root).controllers.map (fun c => (c.path, c.name)) =
      (controllerSources root).map fun s => (s.path, s.stem) := by
  rw [projectOf, List.map_map]
  exact List.map_congr_left fun s _ => path_name_controllerRules _ _

/-! ## Entities -/

/-- The node of a controller in the graph. -/
def Controller.entityNode (c : Controller) : EntityNode :=
  { entity := controllerEntity c.name, attributes := [("path", c.path)] }

/-- The node of a model in the graph. -/
def Model.entityNode (m : Model) : EntityNode :=
  { entity := modelEntity m.name, attributes := (m.table.map fun t => ("table", t)).toList }

/-- The nodes of models and controllers. -/
def Project.classEntities (p : Project) : List EntityNode :=
  p.models.map (·.entityNode) ++ p.controllers.map (·.entityNode)

theorem extracts_classEntities (p : Project) :
    Graph.Extracts p.classEntities (p.classEntities.foldl Graph.addNew Graph.empty) :=
  Graph.extracts_foldl_addNew (List.forall_mem_append.2
    ⟨List.forall_mem_map.2 fun _ _ => rfl, List.forall_mem_map.2 fun _ _ => rfl⟩)

theorem Project.graph_eq (p : Project) : p.graph = p.routes.foldl addRoute
    ((p.controllers.flatMap (·.relations p.models)).foldl Graph.relate
      ((p.models.flatMap Model.relations).foldl Graph.relate
        (p.classEntities.foldl Graph.addNew Graph.empty))) := by
  rw [classEntities, List.foldl_append, List.foldl_map, List.foldl_map]
  rfl

/-- A route leaves the controllers as they are. -/
theorem controllers_addRoute {g : Graph} (h : g.WellFormed) (r : Route) :
    (addRoute g r).WellFormed ∧
      (addRoute g r).entitiesOfKind .controller = g.entitiesOfKind .controller := by
  unfold addRoute
  set n : EntityNode :=
    { entity := r.entity
      attributes := [("source", r.source)] ++ (r.name.map fun n => ("name", n)).toList }
  have hroute : n.entity.kind = .route := rfl
  have hnode := h.entitiesOfKind_addNew (n := n) (k := .controller) (by rw [hroute]; decide)
  cases r.controller with
  | none => exact ⟨h.addNew n, hnode⟩
  | some c =>
    refine ⟨(h.addNew n).relate _, ?_⟩
    rw [Graph.WellFormed.entitiesOfKind_relate, hnode]

theorem controllers_foldl_addRoute {g : Graph} (h : g.WellFormed) (rs : List Route) :
    (rs.foldl addRoute g).entitiesOfKind .controller = g.entitiesOfKind .controller := by
  induction rs generalizing g with
  | nil => rfl
  | cons r rs ih =>
    obtain ⟨hr, hcontrollers⟩ := controllers_addRoute h r
    rw [List.foldl_cons, ih hr, hcontrollers]

/-- Of the controllers of one name the first is extracted. -/
theorem Project.controllers_graph (p : Project) : p.graph.entitiesOfKind .controller =
    (firsts (·.name) p.controllers).map (·.entityNode) := by
  have h := extracts_classEntities p
  have hmodels := h.wellFormed.foldl_relate (p.models.flatMap Model.relations)
  have hwf := hmodels.foldl_relate (p.controllers.flatMap (·.relations p.models))
  have hcontrollers : p.classEntities.filter (·.entity.kind = .controller) =
      p.controllers.map (·.entityNode) := by
    rw [classEntities, List.filter_append, List.filter_eq_nil_iff.2, List.nil_append,
      List.filter_eq_self.2]
    · exact List.forall_mem_map.2 fun c _ => decide_eq_true rfl
    · exact List.forall_mem_map.2 fun m _ => by simp [Model.entityNode, modelEntity]
  have hname : firsts (fun c : Controller => c.entityNode.entity) p.controllers =
      firsts (·.name) p.controllers :=
    firsts_congr _ fun c d => by simp [Controller.entityNode, controllerEntity]
  rw [graph_eq, controllers_foldl_addRoute hwf, Graph.WellFormed.entitiesOfKind_eq,
    Graph.WellFormed.entities_foldl_relate, Graph.WellFormed.entities_foldl_relate,
    ← Graph.WellFormed.entitiesOfKind_eq, h.entitiesOfKind, hcontrollers, firsts_map, hname]

/-! ## Classes -/

/-- The classes of the diagram, kind by kind, each with the identifier of its key, and the routes
with identifiers that belong to no key. -/
structure DrawsClasses (p : Project) (ids : Identifiers) (rest : List Node) : Prop where
  reached : Reached ids
  models : ∀ m ∈ p.models, ids.Knows (classKey "model" m.name)
  controllers : ∀ c ∈ p.controllers, ids.Knows (classKey "controller" c.name)
  middleware : ∀ m ∈ p.middleware, ids.Knows (classKey "middleware" m.name)
  providers : ∀ q ∈ p.providers, ids.Knows (classKey "provider" q.name)
  routes : ∀ n ∈ rest, ∃ r id, n = Route.node r id ∧ ∀ key, ids.Knows key → ids.idOf key ≠ id
  nodes : drawnNodes p.diagram =
    p.models.map (fun m => m.node (ids.idOf (classKey "model" m.name))) ++
      p.controllers.map (fun c => c.node (ids.idOf (classKey "controller" c.name))) ++
      (p.middleware.map (fun m => m.node (ids.idOf (classKey "middleware" m.name))) ++
        p.providers.map (fun q => q.node (ids.idOf (classKey "provider" q.name))) ++ rest)

theorem exists_drawsClasses (p : Project) : ∃ ids rest, DrawsClasses p ids rest := by
  obtain ⟨ids, nodes, hclasses, hnodes, -⟩ := exists_names_classes p
  have hrelationships := (joins_relationshipEdges hclasses.continues.reached p.models).continues
  have hcontrols := (joins_controlEdges hrelationships.reached p).continues
  obtain ⟨routeIds, hroutes⟩ := exists_drawsRoutes hcontrols.reached p.routes
  replace hclasses := hclasses.trans (hrelationships.trans hcontrols)
  obtain ⟨hfirst, hlast⟩ := List.forall_mem_append.1 hclasses.knows
  obtain ⟨hmodels, hcontrollers⟩ := List.forall_mem_append.1 hfirst
  obtain ⟨hmiddleware, hproviders⟩ := List.forall_mem_append.1 hlast
  rw [classItems, List.forall_mem_map] at hmodels hcontrollers hmiddleware hproviders
  refine ⟨_, _, hcontrols.reached, hmodels, hcontrollers, hmiddleware, hproviders,
    hroutes.forall_mem_nodes hcontrols.reached, ?_⟩
  rw [hnodes, hclasses.eq_map, Project.classes]
  simp only [classItems, List.map_append, List.map_map, Function.comp_def, List.append_assoc]

/-! ## Controllers in the diagram -/

/-- The mark of the classes of controllers. -/
def controllerMark : String :=
  "(C,#ADD1B2) controller"

/-- A class that is no controller's, with an identifier that none of them has. -/
structure Beside (p : Project) (name : String → String) (n : Node) : Prop where
  stereotype : n.stereotype ≠ some controllerMark
  id : ∀ c ∈ p.controllers, n.id ≠ name c.name

/-- The diagram has a class for each controller, in their order, with one name for controllers of
one name. -/
structure Project.DrawsControllers (p : Project) (name : String → String) : Prop where
  nodes : ∃ before after, drawnNodes p.diagram =
      before ++ p.controllers.map (fun c => c.node (name c.name)) ++ after ∧
    ∀ n ∈ before ++ after, Beside p name n
  name_eq_iff : ∀ c ∈ p.controllers, ∀ d ∈ p.controllers, name c.name = name d.name ↔ c.name = d.name

theorem DrawsClasses.beside {p : Project} {ids : Identifiers} {rest : List Node}
    (h : DrawsClasses p ids rest) {n : Node} (hmark : n.stereotype ≠ some controllerMark)
    {key : String} (hkey : ids.Knows key) (hn : n.id = ids.idOf key)
    (hother : ∀ s, key ≠ classKey "controller" s) :
    Beside p (fun s => ids.idOf (classKey "controller" s)) n := by
  refine ⟨hmark, fun c hc he => hother c.name ?_⟩
  rw [hn] at he
  exact (h.reached.idOf_eq_iff hkey (h.controllers c hc)).1 he

theorem Project.exists_drawsControllers (p : Project) : ∃ name, p.DrawsControllers name := by
  obtain ⟨ids, rest, h⟩ := exists_drawsClasses p
  refine ⟨fun s => ids.idOf (classKey "controller" s), ⟨_, _, h.nodes, ?_⟩, fun c hc d hd => ?_⟩
  · refine List.forall_mem_append.2 ⟨List.forall_mem_map.2 fun m hm => ?_,
      List.forall_mem_append.2 ⟨List.forall_mem_append.2
        ⟨List.forall_mem_map.2 fun m hm => ?_, List.forall_mem_map.2 fun q hq => ?_⟩,
        fun n hn => ?_⟩⟩
    · exact h.beside (by simp [Model.node]) (h.models m hm) (by simp [Model.node])
        fun s => by simp [classKey, String.ext_iff]
    · exact h.beside (by simp [Middleware.node, controllerMark]) (h.middleware m hm)
        (by simp [Middleware.node]) fun s => by simp [classKey, String.ext_iff]
    · exact h.beside (by simp [Provider.node, controllerMark]) (h.providers q hq)
        (by simp [Provider.node]) fun s => by simp [classKey, String.ext_iff]
    · obtain ⟨r, id, rfl, hid⟩ := h.routes n hn
      refine ⟨by simp [Route.node, controllerMark], fun c hc he => ?_⟩
      exact hid _ (h.controllers c hc) (by simpa [Route.node] using he.symm)
  · rw [h.reached.idOf_eq_iff (h.controllers c hc) (h.controllers d hd), classKey_inj]

/-! ## Controllers that are kept apart -/

/-- Every controller has an entity and a class of its own, and no other class has the identifier of
that. -/
structure Project.KeepsControllers (p : Project) : Prop where
  entities : p.graph.entitiesOfKind .controller = p.controllers.map (·.entityNode)
  ids : ∀ n ∈ drawnNodes p.diagram, n.stereotype = some controllerMark →
    (drawnNodes p.diagram).countP (·.id = n.id) = 1

namespace Project

variable {p : Project}

/-- As many classes have the identifier of a controller as there are controllers of its name. -/
theorem DrawsControllers.countP_id {name : String → String} (h : p.DrawsControllers name)
    {c : Controller} (hc : c ∈ p.controllers) :
    (drawnNodes p.diagram).countP (·.id = name c.name) =
      (p.controllers.map (·.name)).count c.name := by
  obtain ⟨before, after, hnodes, hbeside⟩ := h.nodes
  obtain ⟨hbefore, hafter⟩ := List.forall_mem_append.1 hbeside
  have hnone : ∀ ns : List Node, (∀ n ∈ ns, Beside p name n) → ns.countP (·.id = name c.name) = 0 :=
    fun ns hns => List.countP_eq_zero.2 fun n hn => by simpa using (hns n hn).id c hc
  rw [hnodes, List.countP_append, List.countP_append, hnone _ hbefore, hnone _ hafter,
    List.countP_map, List.count_eq_countP, List.countP_map, Nat.zero_add, Nat.add_zero]
  refine List.countP_congr fun d hd => ?_
  simpa [Controller.node] using h.name_eq_iff d hd c hc

theorem keepsControllers_iff : p.KeepsControllers ↔ (p.controllers.map (·.name)).Nodup := by
  have hentities : p.graph.entitiesOfKind .controller = p.controllers.map (·.entityNode) ↔
      (p.controllers.map (·.name)).Nodup := by
    rw [controllers_graph, map_firsts_eq_iff]
  refine ⟨fun h => hentities.1 h.entities, fun h => ⟨hentities.2 h, fun n hn hmark => ?_⟩⟩
  obtain ⟨name, hname⟩ := p.exists_drawsControllers
  obtain ⟨before, after, hnodes, hbeside⟩ := hname.nodes
  obtain ⟨hbefore, hafter⟩ := List.forall_mem_append.1 hbeside
  rw [hnodes, List.mem_append, List.mem_append] at hn
  rcases hn with (hn | hn) | hn
  · exact absurd hmark (hbefore n hn).stereotype
  · obtain ⟨c, hc, rfl⟩ := List.mem_map.1 hn
    have hid : (c.node (name c.name)).id = name c.name := by simp [Controller.node]
    rw [hid, hname.countP_id hc]
    exact List.nodup_iff_count_eq_one.1 h _ (List.mem_map_of_mem hc)
  · exact absurd hmark (hafter n hn).stereotype

/-- What the graph and the diagram of a project make of its controllers, and when they keep them
apart. -/
structure ShowsControllers (p : Project) : Prop where
  entities : p.graph.entitiesOfKind .controller =
    (firsts (·.name) p.controllers).map (·.entityNode)
  drawn : ∃ name, p.DrawsControllers name
  kept : p.KeepsControllers ↔ (p.controllers.map (·.name)).Nodup

end Project

/-- The controllers of a tree are those of its files, each with the path and the stem of its file.
The graph extracts the first controller of each stem, and the diagram draws all of them, those of
one stem with one identifier, which no other class has. So the controllers of different files are
kept apart just if no two of the files have the same stem. -/
theorem controllers_shown (name : String) (root : FileTree) :
    let p := projectOf name root
    p.controllers.map (fun c => (c.path, c.name)) =
      (controllerSources root).map (fun s => (s.path, s.stem)) ∧
    p.ShowsControllers ∧
    (p.KeepsControllers ↔ ((controllerSources root).map (·.stem)).Nodup) := by
  intro p
  have hsources := controllers_projectOf name root
  have hnames : p.controllers.map (·.name) = (controllerSources root).map (·.stem) := by
    have h := congrArg (List.map Prod.snd) hsources
    rwa [List.map_map, List.map_map] at h
  refine ⟨hsources, ⟨p.controllers_graph, p.exists_drawsControllers,
    Project.keepsControllers_iff⟩, ?_⟩
  rw [Project.keepsControllers_iff, hnames]

/-- Two controllers with one file name in two directories are extracted as one entity and drawn with
one identifier. -/
theorem controllers_merged :
    let file := FileTree.ofText "<?php\nclass UserController extends Controller \x7b\x7d\n"
    let root := FileTree.directory [("app", .directory [("Http", .directory [("Controllers",
      .directory [("Api", .directory [("UserController.php", file)]),
        ("UserController.php", file)])])])]
    let p := projectOf "proj" root
    p.controllers.map (·.path) = ["app/Http/Controllers/Api/UserController.php",
      "app/Http/Controllers/UserController.php"] ∧
    (p.graph.entitiesOfKind .controller).length = 1 ∧
    (drawnNodes p.diagram).map (·.id) = ["UserController", "UserController"] := by
  decide +kernel

end Atlas.Laravel
