import Atlas.Proofs.Laravel.Controllers
import Mathlib.Data.List.GetD

/-!
# Connections of a Laravel project

What is connected in a project is listed once (`Project.connections`) : the models by their
relationships, the controllers with the models they work with, and each route with the controller
that handles it. The graph has a relation for each of these and the diagram an edge, in this order
(`Project.relations_graph`, `Project.exists_drawsConnections`). The edge joins the identifiers of
the ends of the connection. A model and a controller have one identifier throughout the diagram,
every route has one of its own even where another route has the same entity, and no two ends share
one (`connections_shown`).
-/

set_option linter.unusedSectionVars false

namespace Atlas.Laravel

open Identifiers PlantUml

/-! ## Connections -/

/-- What a connection ends at : a model or a controller, known by its name, or the route that stands
at a place among the routes. -/
inductive End where
  | model (name : String)
  | controller (name : String)
  | route (place : ℕ) (r : Route)

/-- The entity of an end. -/
def End.entity : End → Entity
  | model name => modelEntity name
  | controller name => controllerEntity name
  | route _ r => r.entity

/-- What the graph has a relation for and the diagram an edge. -/
inductive Connection where
  | relationship (m : Model) (r : Relationship)
  | control (c : Controller) (model : String)
  | handling (place : ℕ) (r : Route) (controller : String)

namespace Connection

/-- Where a connection starts. -/
def source : Connection → End
  | relationship m _ => .model m.name
  | control c _ => .controller c.name
  | handling i r _ => .route i r

/-- Where a connection leads to. -/
def target : Connection → End
  | relationship _ r => .model r.relatedModel
  | control _ name => .model name
  | handling _ _ name => .controller name

/-- The kind of a connection in the graph. -/
def kind : Connection → RelationKind
  | relationship _ r => r.type.relationKind
  | control .. => .controls
  | handling .. => .handles

/-- The label of a connection in the graph. -/
def label : Connection → Option String
  | relationship _ r => some r.method
  | control .. => none
  | handling _ r _ => r.action

/-- The relation of a connection. -/
def relation (q : Connection) : Relation :=
  ⟨q.source.entity, q.target.entity, q.kind, q.label⟩

/-- How a connection is drawn between two identifiers. -/
def draw : Connection → String → String → Edge
  | relationship _ r => r.edge
  | control .. => controlEdge
  | handling _ r _ => r.edge

/-- The edge of a connection, where each end has a name. -/
def edge (name : End → String) (q : Connection) : Edge :=
  q.draw (name q.source) (name q.target)

theorem ends_draw (q : Connection) (source target : String) :
    (q.draw source target).source = source ∧ (q.draw source target).target = target := by
  cases q with
  | relationship m r =>
    rw [draw, Relationship.edge]
    cases r.type <;> exact ⟨rfl, rfl⟩
  | control c model => exact ⟨rfl, rfl⟩
  | handling i r controller => exact ⟨rfl, rfl⟩

end Connection

/-- Each route with a controller, and that controller. -/
def handlings (rs : List Route) : List Connection :=
  rs.zipIdx.flatMap fun q => q.1.controller.toList.map (.handling q.2 q.1)

/-- The relationships of the models of a project, and the models that its controllers work with. -/
def Project.classConnections (p : Project) : List Connection :=
  (relationships p.models).map (fun q => .relationship q.1 q.2) ++
    p.controls.map fun q => .control q.1 q.2

/-- The connections of a project : those of its models and controllers, and then the controllers that
handle its routes. -/
def Project.connections (p : Project) : List Connection :=
  p.classConnections ++ handlings p.routes

/-- The models, controllers and routes of a project, and the ends of its connections. -/
def Project.ends (p : Project) : List End :=
  p.models.map (fun m => .model m.name) ++ p.controllers.map (fun c => .controller c.name) ++
    p.routes.zipIdx.map (fun q => .route q.2 q.1) ++
    p.connections.flatMap fun q => [q.source, q.target]

/-! ## Relations -/

/-- The node of a route in the graph. -/
def Route.entityNode (r : Route) : EntityNode :=
  { entity := r.entity
    attributes := [("source", r.source)] ++ (r.name.map fun n => ("name", n)).toList }

/-- The relation of a route to the controller that handles it. -/
def Route.relations (r : Route) : List Relation :=
  r.controller.toList.map fun c => ⟨r.entity, controllerEntity c, .handles, r.action⟩

/-- The steps by which a graph gets a route. -/
def Route.steps (r : Route) : List Graph.Step :=
  [r.entityNode].map .add ++ r.relations.map .relate

theorem addRoute_eq_run (g : Graph) (r : Route) : addRoute g r = g.run r.steps := by
  rw [addRoute, Route.steps, Route.relations]
  cases r.controller <;> rfl

theorem relations_handlings (rs : List Route) :
    (handlings rs).map (·.relation) = rs.flatMap Route.relations := by
  have hroutes : rs = rs.zipIdx.map Prod.fst := (List.zipIdx_map_fst 0 rs).symm
  conv_rhs => rw [hroutes, List.flatMap_map]
  rw [handlings, List.map_flatMap]
  exact List.flatMap_congr fun q _ => List.map_map

namespace Project

variable (p : Project)

/-- The relations of models and of controllers. -/
def classRelations : List Relation :=
  p.models.flatMap Model.relations ++ p.controllers.flatMap (·.relations p.models)

/-- The steps by which the graph of a project is built. -/
def steps : List Graph.Step :=
  p.classEntities.map .add ++ p.classRelations.map .relate ++ p.routes.flatMap Route.steps

theorem graph_eq_run : p.graph = Graph.empty.run p.steps := by
  have hroute : addRoute = fun g r => g.run r.steps :=
    funext fun g => funext fun r => addRoute_eq_run g r
  have hrelations : ∀ g : Graph, p.classRelations.foldl Graph.relate g =
      (p.controllers.flatMap (·.relations p.models)).foldl Graph.relate
        ((p.models.flatMap Model.relations).foldl Graph.relate g) := fun g =>
    List.foldl_append
  rw [graph_eq, hroute, ← hrelations, Graph.run, steps, List.foldl_append, List.foldl_append,
    List.foldl_map, List.foldl_map, List.foldl_flatMap]
  rfl

theorem relations_classConnections :
    p.classConnections.map (·.relation) = p.classRelations := by
  simp only [classConnections, classRelations, relationships, controls, List.map_append,
    List.map_flatMap, List.map_map]
  rfl

theorem relations_graph : p.graph.relations = p.connections.map (·.relation) := by
  have hroute : ∀ r : Route, r.steps.flatMap Graph.Step.relations = r.relations := fun r => by
    rw [Route.steps, List.flatMap_append, Graph.flatMap_relations_add,
      Graph.flatMap_relations_relate, List.nil_append]
  rw [graph_eq_run, Graph.wellFormed_empty.relations_run, steps, List.flatMap_append,
    List.flatMap_append, Graph.flatMap_relations_add, Graph.flatMap_relations_relate,
    List.flatMap_assoc, List.flatMap_congr fun r _ => hroute r, connections, List.map_append,
    relations_handlings, relations_classConnections]
  rfl

theorem placed_steps : p.steps.flatMap Graph.Step.placed =
    p.classEntities.map (·.entity) ++ p.routes.map (·.entity) := by
  have hroute : ∀ r : Route, r.steps.flatMap Graph.Step.placed = [r.entity] := fun r => by
    rw [Route.steps, List.flatMap_append, Graph.flatMap_placed_add, Graph.flatMap_placed_relate]
    rfl
  rw [steps, List.flatMap_append, List.flatMap_append, Graph.flatMap_placed_add,
    Graph.flatMap_placed_relate, List.flatMap_assoc, List.flatMap_congr fun r _ => hroute r,
    List.append_nil, List.map_eq_flatMap (l := p.routes)]

/-- The entities of the graph are those of the ends. -/
theorem mem_mentioned_graph (e : Entity) :
    e ∈ p.graph.mentioned ↔ e ∈ p.ends.map (·.entity) := by
  have hroutes : p.routes.zipIdx.map (fun q => q.1.entity) = p.routes.map (·.entity) := by
    conv_rhs => rw [← List.zipIdx_map_fst 0 p.routes, List.map_map]
    rfl
  have hfirst : (p.models.map (fun m => End.model m.name) ++
      p.controllers.map (fun c => End.controller c.name) ++
      p.routes.zipIdx.map fun q => End.route q.2 q.1).map (·.entity) =
        p.classEntities.map (·.entity) ++ p.routes.map (·.entity) := by
    simp only [classEntities, List.map_append, List.map_map, ← hroutes]
    rfl
  rw [graph_eq_run, Graph.mem_mentioned_run_empty, ← graph_eq_run, relations_graph, placed_steps,
    ends, List.map_append, hfirst, List.mem_append, List.mem_append, List.mem_append]
  refine or_congr_right ?_
  simp [Connection.relation, List.map_flatMap]

end Project

/-! ## Names of ends -/

namespace End

/-- The identifier of an end, where routes have these. -/
def name (ids : Identifiers) (routeIds : List String) : End → String
  | model s => ids.idOf (classKey "model" s)
  | controller s => ids.idOf (classKey "controller" s)
  | route i _ => routeIds.getD i ""

/-- The key of an end is known, or it is one of some routes. -/
def IsKnown (ids : Identifiers) (rs : List Route) : End → Prop
  | model s => ids.Knows (classKey "model" s)
  | controller s => ids.Knows (classKey "controller" s)
  | route i r => rs[i]? = some r

theorem classKey_model_ne {s t : String} : classKey "model" s ≠ classKey "controller" t := by
  simp [classKey, String.ext_iff]

section Known

variable {ids : Identifiers} {rs : List Route} {routeIds : List String}

theorem getD_mem (hlength : rs.length = routeIds.length) {i : ℕ} {r : Route}
    (h : rs[i]? = some r) : routeIds.getD i "" ∈ routeIds := by
  have hi : i < routeIds.length := hlength ▸ (List.getElem?_eq_some_iff.1 h).1
  rw [List.getD_eq_getElem _ _ hi]
  exact List.getElem_mem hi

/-- Known ends have different identifiers. -/
theorem name_eq_iff (hids : Reached ids) (hlength : rs.length = routeIds.length)
    (hnodup : routeIds.Nodup) (hne : ∀ id ∈ routeIds, ∀ key, ids.Knows key → ids.idOf key ≠ id)
    {a b : End} (ha : a.IsKnown ids rs) (hb : b.IsKnown ids rs) :
    a.name ids routeIds = b.name ids routeIds ↔ a = b := by
  cases a with
  | model s =>
    cases b with
    | model t => rw [name, name, hids.idOf_eq_iff ha hb, classKey_inj, model.injEq]
    | controller t =>
      exact iff_of_false (fun h => classKey_model_ne ((hids.idOf_eq_iff ha hb).1 h)) nofun
    | route j q => exact iff_of_false (hne _ (getD_mem hlength hb) _ ha) nofun
  | controller s =>
    cases b with
    | model t =>
      exact iff_of_false (fun h => classKey_model_ne ((hids.idOf_eq_iff hb ha).1 h.symm)) nofun
    | controller t => rw [name, name, hids.idOf_eq_iff ha hb, classKey_inj, controller.injEq]
    | route j q => exact iff_of_false (hne _ (getD_mem hlength hb) _ ha) nofun
  | route i r =>
    cases b with
    | model t => exact iff_of_false (hne _ (getD_mem hlength ha) _ hb).symm nofun
    | controller t => exact iff_of_false (hne _ (getD_mem hlength ha) _ hb).symm nofun
    | route j q =>
      have hi : i < routeIds.length := hlength ▸ (List.getElem?_eq_some_iff.1 ha).1
      have hj : j < routeIds.length := hlength ▸ (List.getElem?_eq_some_iff.1 hb).1
      rw [name, name, List.getD_eq_getElem _ _ hi, List.getD_eq_getElem _ _ hj,
        hnodup.getElem_inj_iff, route.injEq]
      refine ⟨fun hij => ⟨hij, ?_⟩, fun h => h.1⟩
      subst hij
      exact Option.some.inj (ha.symm.trans hb)

end Known

end End

theorem zip_eq_map_zipIdx {α β : Type} {as : List α} {bs : List β} (h : as.length = bs.length)
    (b : β) : as.zip bs = as.zipIdx.map fun q => (q.1, bs.getD q.2 b) := by
  refine List.ext_getElem (by simp [h]) fun i hi hi' => ?_
  rw [List.length_zip] at hi
  rw [List.getElem_zip, List.getElem_map, List.getElem_zipIdx, Nat.zero_add,
    List.getD_eq_getElem _ _ (by omega)]

/-! ## Edges -/

namespace Project

variable {p : Project}

/-- The identifiers with which a diagram is drawn, those of the routes apart. -/
structure DrawnWith (p : Project) (ids : Identifiers) (routeIds : List String) : Prop where
  reached : Reached ids
  length : p.routes.length = routeIds.length
  nodup : routeIds.Nodup
  unkeyed : ∀ id ∈ routeIds, ∀ key, ids.Knows key → ids.idOf key ≠ id
  classes : ∀ a ∈ p.classes, ids.Knows a.1
  connections : ∀ q ∈ p.connections,
    q.source.IsKnown ids p.routes ∧ q.target.IsKnown ids p.routes
  nodes : drawnNodes p.diagram = p.classes.map (fun a => a.2 (ids.idOf a.1)) ++
    (p.routes.zip routeIds).map fun q => q.1.node q.2
  edges : p.diagram.edges = p.connections.map (·.edge (End.name ids routeIds))

theorem exists_drawnWith (p : Project) : ∃ ids routeIds, p.DrawnWith ids routeIds := by
  obtain ⟨ids, nodes, hclasses, hnodes, hedges⟩ := exists_names_classes p
  have hrelationships := joins_relationshipEdges hclasses.continues.reached p.models
  have hcontrols := joins_controlEdges hrelationships.continues.reached p
  obtain ⟨routeIds, hroutes⟩ := exists_drawsRoutes hcontrols.continues.reached p.routes
  obtain ⟨hnodup, hne⟩ := hroutes.nodup_idOf_ne hcontrols.continues.reached
  -- Names keep their identifiers while the edges and the routes are drawn.
  replace hcontrols := hcontrols.trans hroutes.continues
  replace hrelationships := hrelationships.trans hcontrols.continues
  replace hclasses := hclasses.trans hrelationships.continues
  refine ⟨_, routeIds, hroutes.continues.reached, hroutes.length, hnodup, hne, hclasses.knows,
    List.forall_mem_append.2 ⟨List.forall_mem_append.2 ⟨?_, ?_⟩, ?_⟩, ?_, ?_⟩
  · exact List.forall_mem_map.2 hrelationships.knows
  · exact List.forall_mem_map.2 hcontrols.knows
  · refine List.forall_mem_flatMap.2 fun q hq => List.forall_mem_map.2 fun c hc => ?_
    have hplace := List.mem_zipIdx_iff_getElem?.1 hq
    exact ⟨hplace, hroutes.knows _ (List.mem_of_getElem? hplace) c (Option.mem_toList.1 hc)⟩
  · rw [hnodes, hclasses.eq_map, hroutes.nodes]
  · rw [hedges, hrelationships.eq_map, hcontrols.eq_map, hroutes.edges,
      zip_eq_map_zipIdx hroutes.length ""]
    simp only [connections, classConnections, handlings, List.map_append, List.map_map,
      List.map_flatMap, List.flatMap_map]
    rfl

namespace DrawnWith

variable {ids : Identifiers} {routeIds : List String}

theorem knows_class (h : p.DrawnWith ids routeIds) {α : Type} {kind : String} {name : α → String}
    {node : α → String → Node} {items : List α}
    (hitems : classItems kind name node items ⊆ p.classes) :
    ∀ a ∈ items, ids.Knows (classKey kind (name a)) := fun _ ha =>
  h.classes _ (hitems (List.mem_map_of_mem ha))

theorem isKnown (h : p.DrawnWith ids routeIds) : ∀ a ∈ p.ends, a.IsKnown ids p.routes := by
  have hmodels : classItems "model" Model.name Model.node p.models ⊆ p.classes :=
    List.subset_append_of_subset_left _ (List.subset_append_left _ _)
  have hcontrollers :
      classItems "controller" Controller.name Controller.node p.controllers ⊆ p.classes :=
    List.subset_append_of_subset_left _ (List.subset_append_right _ _)
  refine List.forall_mem_append.2 ⟨List.forall_mem_append.2 ⟨List.forall_mem_append.2
    ⟨List.forall_mem_map.2 ?_, List.forall_mem_map.2 ?_⟩, List.forall_mem_map.2 ?_⟩, ?_⟩
  · exact h.knows_class hmodels
  · exact h.knows_class hcontrollers
  · exact fun q hq => List.mem_zipIdx_iff_getElem?.1 hq
  · refine List.forall_mem_flatMap.2 fun q hq => ?_
    exact List.forall_mem_cons.2 ((h.connections q hq).imp_right List.forall_mem_singleton.2)

/-- The classes of a kind that no end has, with the identifiers of their keys. -/
theorem beside (h : p.DrawnWith ids routeIds) {α : Type} {kind : String} {name : α → String}
    {node : α → String → Node} {items : List α}
    (hitems : classItems kind name node items ⊆ p.classes)
    (hmodel : ∀ s t, classKey kind s ≠ classKey "model" t)
    (hcontroller : ∀ s t, classKey kind s ≠ classKey "controller" t)
    {a : End} (ha : a ∈ p.ends) :
    ∀ b ∈ items, ids.idOf (classKey kind (name b)) ≠ a.name ids routeIds := by
  intro b hb he
  have hknows := h.knows_class hitems b hb
  have hknown := h.isKnown a ha
  cases a with
  | model t => exact hmodel _ t ((h.reached.idOf_eq_iff hknows hknown).1 he)
  | controller t => exact hcontroller _ t ((h.reached.idOf_eq_iff hknows hknown).1 he)
  | route i r => exact h.unkeyed _ (End.getD_mem h.length hknown) _ hknows he

end DrawnWith

/-- The diagram has an edge for each connection and classes for models, controllers and routes, all
with the names of their ends. No two ends have one name, and no class of anything else has one of
these names. -/
structure DrawsConnections (p : Project) (name : End → String) : Prop where
  edges : p.diagram.edges = p.connections.map (·.edge name)
  joins : List.Forall₂ (fun q e => e.source = name q.source ∧ e.target = name q.target)
    p.connections p.diagram.edges
  nodes : ∃ beside, drawnNodes p.diagram =
      p.models.map (fun m => m.node (name (.model m.name))) ++
        p.controllers.map (fun c => c.node (name (.controller c.name))) ++ beside ++
        p.routes.zipIdx.map (fun q => q.1.node (name (.route q.2 q.1))) ∧
    ∀ n ∈ beside, ∀ a ∈ p.ends, n.id ≠ name a
  name_eq_iff : ∀ a ∈ p.ends, ∀ b ∈ p.ends, name a = name b ↔ a = b

theorem exists_drawsConnections (p : Project) : ∃ name, p.DrawsConnections name := by
  obtain ⟨ids, routeIds, h⟩ := p.exists_drawnWith
  have hmiddleware : classItems "middleware" Middleware.name Middleware.node p.middleware ⊆
      p.classes :=
    List.subset_append_of_subset_right _ (List.subset_append_left _ _)
  have hproviders : classItems "provider" Provider.name Provider.node p.providers ⊆ p.classes :=
    List.subset_append_of_subset_right _ (List.subset_append_right _ _)
  refine ⟨End.name ids routeIds, h.edges, ?_, ⟨
    p.middleware.map (fun m => m.node (ids.idOf (classKey "middleware" m.name))) ++
      p.providers.map (fun m => m.node (ids.idOf (classKey "provider" m.name))), ?_, ?_⟩,
    fun a ha b hb => ?_⟩
  · rw [h.edges, List.forall₂_map_right_iff, List.forall₂_same]
    exact fun q _ => q.ends_draw _ _
  · rw [h.nodes, classes, zip_eq_map_zipIdx h.length ""]
    simp only [classItems, List.map_append, List.map_map, List.append_assoc]
    rfl
  · refine fun n hn a ha => (List.mem_append.1 hn).elim (fun hn => ?_) fun hn => ?_
    · obtain ⟨m, hm, rfl⟩ := List.mem_map.1 hn
      exact h.beside hmiddleware (by simp [classKey, String.ext_iff])
        (by simp [classKey, String.ext_iff]) ha m hm
    · obtain ⟨m, hm, rfl⟩ := List.mem_map.1 hn
      exact h.beside hproviders (by simp [classKey, String.ext_iff])
        (by simp [classKey, String.ext_iff]) ha m hm
  · exact End.name_eq_iff h.reached h.length h.nodup h.unkeyed (h.isKnown a ha) (h.isKnown b hb)

/-- The graph of a project relates, and its diagram joins, the ends of the connections. -/
structure ShowsConnections (p : Project) : Prop where
  relations : p.graph.relations = p.connections.map (·.relation)
  entities : ∀ e, e ∈ p.graph.mentioned ↔ e ∈ p.ends.map (·.entity)
  drawn : ∃ name, p.DrawsConnections name

/-- The edges of the diagram are those of the relations of the graph, in the same order. -/
theorem connections_shown (p : Project) : p.ShowsConnections :=
  ⟨p.relations_graph, p.mem_mentioned_graph, p.exists_drawsConnections⟩

end Project

end Atlas.Laravel
