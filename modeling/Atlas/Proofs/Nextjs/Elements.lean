import Atlas.Nextjs.Report
import Atlas.Proofs.Diagram.Nodes
import Atlas.Proofs.Graph.Growth
import Atlas.Proofs.Identifiers.Log

/-!
# Elements of a Next.js project

The diagram of a project draws a class for each of its elements, with one identifier for elements of
one key (`Project.exists_drawsElements`). Components are known by their names, pages, layouts and
state modules by their paths, API routes by their routes (`Element.key`). The graph extracts one
entity for the components of one name (`Project.components_graph`). So elements are kept apart just
if no two of them have one key (`Project.keepsElements_iff`).
-/

set_option linter.unusedSectionVars false

namespace Atlas.Nextjs

open Identifiers PlantUml

/-! ## Elements -/

/-- What the diagram of a project draws a class for. -/
inductive Element where
  | component (c : Component)
  | page (p : Page)
  | layout (l : Layout)
  | state (m : StateModule)
  | api (a : Api)

namespace Element

/-- The kind of an element, and what it is known by among those of its kind. -/
def key : Element → String × String
  | component c => ("component", c.name)
  | page p => ("page", p.path)
  | layout l => ("layout", l.path)
  | state m => ("state", m.path)
  | api a => ("api", a.route)

/-- The class of an element. -/
def node : Element → String → Node
  | component c => c.node
  | page p => p.node
  | layout l => l.node
  | state m => m.node
  | api a => a.node

/-- The text of a key. -/
def textOf (key : String × String) : String :=
  key.1 ++ ":" ++ key.2

@[simp] theorem id_node (e : Element) (id : String) : (e.node id).id = id := by
  cases e <;> simp [node, Component.node, Page.node, Layout.node, StateModule.node, Api.node]

/-- The kinds of elements differ in their first letters. -/
theorem textOf_key_inj {e f : Element} : textOf e.key = textOf f.key ↔ e.key = f.key := by
  refine ⟨fun h => ?_, congrArg textOf⟩
  cases e <;> cases f <;> simp_all [textOf, key, String.ext_iff]

end Element

/-- The elements of a project, kind by kind. -/
def Project.elements (p : Project) : List Element :=
  p.components.map .component ++ p.pages.map .page ++ p.layouts.map .layout ++
    p.stateModules.map .state ++ p.apis.map .api

/-! ## Classes -/

theorem draws_elementNodes {α : Type} {ids : Identifiers} (h : Reached ids) (kind : String)
    (key base : α → String) (node : α → String → Node) (items : List α) (element : α → Element)
    (helement : ∀ a, (element a).key = (kind, key a) ∧ (element a).node = node a) :
    Draws ids (elementNodes kind key base node ids items).2 (fun e => Element.textOf e.key)
      Element.node (items.map element) (elementNodes kind key base node ids items).1 := by
  have hkey : (fun a => Element.textOf (element a).key) = fun a => kind ++ ":" ++ key a :=
    funext fun a => by rw [(helement a).1, Element.textOf]
  have hnode : (fun a => (element a).node) = node := funext fun a => (helement a).2
  refine .map ?_
  rw [hkey, hnode]
  exact draws_foldl h _ base node items rfl

/-- The identifiers with which a diagram is drawn are those of the elements. -/
structure Project.DrawnWith (p : Project) (ids : Identifiers) : Prop where
  reached : Reached ids
  knows_iff : ∀ key, ids.Knows key ↔ key ∈ p.elements.map fun e => Element.textOf e.key
  nodes : drawnNodes p.diagram = p.elements.map fun e => e.node (ids.idOf (Element.textOf e.key))
  edges : p.diagram.edges =
    p.pages.flatMap (p.pageEdges ids) ++ p.components.flatMap (·.edges ids)

theorem Project.exists_drawnWith (p : Project) : ∃ ids, p.DrawnWith ids := by
  have hcomponents := draws_elementNodes reached_empty "component" Component.name
    (fun c => "component_" ++ c.name) Component.node p.components .component fun _ => ⟨rfl, rfl⟩
  set components := elementNodes "component" Component.name (fun c => "component_" ++ c.name)
    Component.node .empty p.components
  have hpages := draws_elementNodes hcomponents.names.continues.reached "page" Page.path Page.path
    Page.node p.pages .page fun _ => ⟨rfl, rfl⟩
  set pages := elementNodes "page" Page.path Page.path Page.node components.2 p.pages
  have hlayouts := draws_elementNodes hpages.names.continues.reached "layout" Layout.path
    Layout.path Layout.node p.layouts .layout fun _ => ⟨rfl, rfl⟩
  set layouts := elementNodes "layout" Layout.path Layout.path Layout.node pages.2 p.layouts
  have hstates := draws_elementNodes hlayouts.names.continues.reached "state" StateModule.path
    StateModule.path StateModule.node p.stateModules .state fun _ => ⟨rfl, rfl⟩
  set states := elementNodes "state" StateModule.path StateModule.path StateModule.node layouts.2
    p.stateModules
  have hapis := draws_elementNodes hstates.names.continues.reached "api" Api.route
    (fun a => "api_" ++ a.route) Api.node p.apis .api fun _ => ⟨rfl, rfl⟩
  set apis := elementNodes "api" Api.route (fun a => "api_" ++ a.route) Api.node states.2 p.apis
  have hall : Draws .empty apis.2 (fun e => Element.textOf e.key) Element.node p.elements
      (components.1 ++ pages.1 ++ layouts.1 ++ states.1 ++ apis.1) :=
    (((hcomponents.append hpages).append hlayouts).append hstates).append hapis
  let groups := [("Components", components.1), ("Pages", pages.1), ("Layouts", layouts.1),
    ("State", states.1), ("APIs", apis.1)]
  have hgroups : drawnNodes p.diagram = groups.flatMap Prod.snd := drawnNodes_groups groups rfl rfl
  refine ⟨apis.2, hall.names.continues.reached, fun key => hall.knows_iff, ?_, edges_groups groups _⟩
  rw [hgroups, ← hall.names.eq_map]
  simp only [groups, List.flatMap_cons, List.flatMap_nil, List.append_nil, List.append_assoc]

/-- The diagram has a class for each element, in their order, with one name for elements of one
key. -/
structure Project.DrawsElements (p : Project) (name : String × String → String) : Prop where
  nodes : drawnNodes p.diagram = p.elements.map fun e => e.node (name e.key)
  name_eq_iff : ∀ e ∈ p.elements, ∀ f ∈ p.elements, name e.key = name f.key ↔ e.key = f.key

namespace Project

variable {p : Project} {ids : Identifiers}

theorem DrawnWith.knows (h : p.DrawnWith ids) {e : Element} (he : e ∈ p.elements) :
    ids.Knows (Element.textOf e.key) :=
  (h.knows_iff _).2 (List.mem_map_of_mem he)

theorem DrawnWith.drawsElements (h : p.DrawnWith ids) :
    p.DrawsElements fun key => ids.idOf (Element.textOf key) :=
  ⟨h.nodes, fun e he f hf => by
    rw [h.reached.idOf_eq_iff (h.knows he) (h.knows hf), Element.textOf_key_inj]⟩

theorem exists_drawsElements (p : Project) : ∃ name, p.DrawsElements name := by
  obtain ⟨ids, h⟩ := p.exists_drawnWith
  exact ⟨_, h.drawsElements⟩

end Project

/-! ## Entities -/

/-- The node of a component in the graph. -/
def Component.entityNode (c : Component) : EntityNode :=
  { entity := componentEntity c.name, attributes := [("path", c.path)] }

theorem entities_addUses (source : Entity) (g : Graph) (names : List String) :
    (addUses source g names).entities = g.entities := by
  refine Graph.WellFormed.entities_foldl (fun g name => ?_) g names
  dsimp only
  split
  · exact Graph.WellFormed.entities_relate _ _
  · rfl

theorem entities_addCalls (p : Project) (g : Graph) (q : Page) :
    (addCalls p g q).entities = g.entities := by
  refine Graph.WellFormed.entities_foldl (fun g url => ?_) g q.apis
  split
  · exact Graph.WellFormed.entities_relate _ _
  · rfl

/-- Relations between elements leave the entities as they are. -/
theorem Project.entities_graph (p : Project) :
    p.graph.entities = (p.entityNodes.foldl Graph.addNew Graph.empty).entities := by
  rw [graph, Graph.WellFormed.entities_foldl, Graph.WellFormed.entities_foldl]
  · exact fun g c => entities_addUses _ g _
  · exact fun g q => (entities_addCalls p _ q).trans (entities_addUses _ g _)

theorem Project.extracts_entityNodes (p : Project) :
    Graph.Extracts p.entityNodes (p.entityNodes.foldl Graph.addNew Graph.empty) :=
  Graph.extracts_foldl_addNew (by simp [entityNodes, or_imp, forall_and])

/-- Of the components of one name the first is extracted. -/
theorem Project.components_graph (p : Project) : p.graph.entitiesOfKind .component =
    (firsts (·.name) p.components).map (·.entityNode) := by
  have hcomponents : p.entityNodes.filter (·.entity.kind = .component) =
      p.components.map (·.entityNode) := by
    rw [entityNodes, List.filter_append, List.filter_append, List.filter_append]
    simp [List.filter_map, Function.comp_def, Component.entityNode, componentEntity, Page.entity,
      Api.entity]
  have hname : firsts (fun c : Component => c.entityNode.entity) p.components =
      firsts (·.name) p.components :=
    firsts_congr _ fun c d => by simp [Component.entityNode, componentEntity]
  rw [Graph.WellFormed.entitiesOfKind_eq, entities_graph, ← Graph.WellFormed.entitiesOfKind_eq,
    p.extracts_entityNodes.entitiesOfKind, hcomponents, firsts_map, hname]

/-! ## Elements that are kept apart -/

/-- Every class of the diagram has an identifier of its own, and every component an entity. -/
structure Project.KeepsElements (p : Project) : Prop where
  ids : ((drawnNodes p.diagram).map (·.id)).Nodup
  entities : p.graph.entitiesOfKind .component = p.components.map (·.entityNode)

namespace Project

variable {p : Project}

theorem DrawsElements.ids {name : String × String → String} (h : p.DrawsElements name) :
    (drawnNodes p.diagram).map (·.id) = (p.elements.map (·.key)).map name := by
  rw [h.nodes, List.map_map, List.map_map]
  exact List.map_congr_left fun e _ => e.id_node _

/-- The keys of elements differ just if those of each kind do. -/
theorem nodup_keys_iff : (p.elements.map (·.key)).Nodup ↔
    (p.components.map (·.name)).Nodup ∧ (p.pages.map (·.path)).Nodup ∧
      (p.layouts.map (·.path)).Nodup ∧ (p.stateModules.map (·.path)).Nodup ∧
      (p.apis.map (·.route)).Nodup := by
  have hkind : ∀ {α : Type} (l : List α) (kind : String) (f : α → String),
      (l.map fun a => (kind, f a)).Nodup ↔ (l.map f).Nodup := fun l kind f => by
    have hmap : (l.map fun a => (kind, f a)) = (l.map f).map (Prod.mk kind) := by
      rw [List.map_map]
      rfl
    rw [hmap, List.nodup_map_iff (Prod.mk_right_injective kind)]
  have happend : ∀ {xs ys : List (String × String)}, (∀ x ∈ xs, ∀ y ∈ ys, x.1 ≠ y.1) →
      ((xs ++ ys).Nodup ↔ xs.Nodup ∧ ys.Nodup) := fun hne => by
    rw [List.nodup_append, ← and_assoc, and_iff_left]
    exact fun x hx y hy he => hne x hx y hy (congrArg Prod.fst he)
  have hkeys : p.elements.map (·.key) = p.components.map (fun c => ("component", c.name)) ++
      (p.pages.map (fun q => ("page", q.path)) ++ (p.layouts.map (fun l => ("layout", l.path)) ++
        (p.stateModules.map (fun m => ("state", m.path)) ++
          p.apis.map fun a => ("api", a.route)))) := by
    simp [elements, Element.key, Function.comp_def]
  rw [hkeys, happend, happend, happend, happend, hkind, hkind, hkind, hkind, hkind]
  all_goals simp [or_imp, forall_and]

/-- Elements are kept apart just if their keys are. -/
theorem keepsElements_iff : p.KeepsElements ↔ (p.elements.map (·.key)).Nodup := by
  obtain ⟨name, hname⟩ := p.exists_drawsElements
  have hids : ((drawnNodes p.diagram).map (·.id)).Nodup ↔ (p.elements.map (·.key)).Nodup := by
    rw [hname.ids]
    refine ⟨List.Nodup.of_map name, fun h => h.map_on ?_⟩
    exact List.forall_mem_map.2 fun e he => List.forall_mem_map.2 fun f hf =>
      (hname.name_eq_iff e he f hf).1
  refine ⟨fun h => hids.1 h.ids, fun h => ⟨hids.2 h, ?_⟩⟩
  rw [components_graph, map_firsts_eq_iff]
  exact (nodup_keys_iff.1 h).1

end Project

end Atlas.Nextjs
