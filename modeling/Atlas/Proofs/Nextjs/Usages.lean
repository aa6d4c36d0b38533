import Atlas.Proofs.Nextjs.Elements

/-!
# Usages in a Next.js project

Components and pages use components that are in the project, and pages call its API routes
(`Project.usages`). The graph has a relation for each usage and nothing dangling, since a usage is
only of what was extracted (`Project.relates_graph`). The diagram has an edge for each usage, from
the class of the very page or component that has it, and beside these only those from pages to their
layouts (`Project.usages_shown`). Which components are in the project the graph decides by their
entities and the diagram by the keys of identifiers, and both agree
(`Project.Places.component_iff`, `Project.DrawnWith.knows_component_iff`).
-/

set_option linter.unusedSectionVars false

namespace Atlas.Nextjs

open Identifiers PlantUml

/-! ## Usages -/

/-- What a usage runs between : a component, known by its name, a page or an API route. -/
inductive End where
  | component (name : String)
  | page (q : Page)
  | api (a : Api)

namespace End

/-- The entity of an end. -/
def entity : End → Entity
  | component name => componentEntity name
  | page q => q.entity
  | api a => a.entity

/-- The key of the element of an end. A page is known by its path, and not by its route. -/
def key : End → String × String
  | component name => ("component", name)
  | page q => ("page", q.path)
  | api a => ("api", a.route)

end End

/-- What the graph has a relation for and the diagram an edge : a component that a component imports
or a page has on it, or an API route that is called from a page at an address. -/
inductive Usage where
  | imported (c : Component) (name : String)
  | placed (q : Page) (name : String)
  | called (q : Page) (url : String) (a : Api)

namespace Usage

/-- Where a usage starts. -/
def source : Usage → End
  | imported c _ => .component c.name
  | placed q _ => .page q
  | called q _ _ => .page q

/-- What is used. -/
def target : Usage → End
  | imported _ name => .component name
  | placed _ name => .component name
  | called _ _ a => .api a

/-- The kind of a usage in the graph. -/
def kind : Usage → RelationKind
  | imported .. => .uses
  | placed .. => .uses
  | called .. => .calls

/-- The label of a usage in the graph. -/
def label : Usage → Option String
  | called _ url _ => some url
  | _ => none

/-- The relation of a usage. -/
def relation (u : Usage) : Relation :=
  ⟨u.source.entity, u.target.entity, u.kind, u.label⟩

/-- The edge of a usage, where each key has a name. -/
def edge (name : String × String → String) (u : Usage) : Edge :=
  { source := name u.source.key, arrow := "..>", target := name u.target.key
    label := some u.kind.code }

end Usage

/-- Those of some names that components of the project have. -/
def Project.known (p : Project) (names : List String) : List String :=
  names.filter (· ∈ p.components.map (·.name))

/-- The components that a component imports. -/
def Component.usages (p : Project) (c : Component) : List Usage :=
  (p.known (c.imports.filter (· ≠ c.name))).map (.imported c)

/-- The components that a page has on it, and the API routes that are called from it. -/
def Page.usages (p : Project) (q : Page) : List Usage :=
  (p.known q.components).map (.placed q) ++
    q.apis.filterMap fun url => (p.calledApi? url).map (.called q url)

/-- The usages in a project. -/
def Project.usages (p : Project) : List Usage :=
  p.components.flatMap (·.usages p) ++ p.pages.flatMap (·.usages p)

theorem Project.calledApi?_mem {p : Project} {url : String} {a : Api}
    (h : p.calledApi? url = some a) : a ∈ p.apis :=
  List.mem_of_find?_eq_some h

section Ends

variable {p : Project}

theorem Project.known_subset (p : Project) (names : List String) :
    p.known names ⊆ p.components.map (·.name) := fun n hn => by
  simpa using (List.mem_filter.1 hn).2

theorem Project.key_component_mem {name : String} (h : name ∈ p.components.map (·.name)) :
    (End.component name).key ∈ p.elements.map (·.key) := by
  obtain ⟨c, hc, rfl⟩ := List.mem_map.1 h
  exact List.mem_map.2 ⟨.component c, by simpa [elements] using hc, rfl⟩

theorem Project.key_page_mem {q : Page} (hq : q ∈ p.pages) :
    (End.page q).key ∈ p.elements.map (·.key) :=
  List.mem_map.2 ⟨.page q, by simpa [elements] using hq, rfl⟩

theorem Project.key_api_mem {a : Api} (ha : a ∈ p.apis) :
    (End.api a).key ∈ p.elements.map (·.key) :=
  List.mem_map.2 ⟨.api a, by simpa [elements] using ha, rfl⟩

/-- Usages run between elements of the project. -/
theorem Project.key_mem_of_mem_usages : ∀ u ∈ p.usages,
    u.source.key ∈ p.elements.map (·.key) ∧ u.target.key ∈ p.elements.map (·.key) := by
  refine List.forall_mem_append.2 ⟨List.forall_mem_flatMap.2 fun c hc => ?_,
    List.forall_mem_flatMap.2 fun q hq => List.forall_mem_append.2 ⟨?_, ?_⟩⟩
  · exact List.forall_mem_map.2 fun n hn =>
      ⟨key_component_mem (List.mem_map_of_mem hc), key_component_mem (p.known_subset _ hn)⟩
  · exact List.forall_mem_map.2 fun n hn =>
      ⟨key_page_mem hq, key_component_mem (p.known_subset _ hn)⟩
  · intro u hu
    obtain ⟨url, -, hurl⟩ := List.mem_filterMap.1 hu
    obtain ⟨a, ha, rfl⟩ := Option.map_eq_some_iff.1 hurl
    exact ⟨key_page_mem hq, key_api_mem (calledApi?_mem ha)⟩

end Ends

/-! ## Relations -/

section Graph

variable {p : Project} {g : Graph}

/-- The entities of a graph are those that were extracted from the project. -/
def Project.Places (p : Project) (g : Graph) : Prop :=
  ∀ e, e ∈ g.mentioned ↔ e ∈ p.entityNodes.map (·.entity)

theorem Project.Places.component_iff (h : p.Places g) (name : String) :
    componentEntity name ∈ g.mentioned ↔ name ∈ p.components.map (·.name) := by
  rw [h]
  simp [entityNodes, componentEntity, Page.entity, Api.entity]

theorem Project.Places.page (h : p.Places g) {q : Page} (hq : q ∈ p.pages) :
    q.entity ∈ g.mentioned := by
  rw [h, entityNodes, List.map_append, List.map_append, List.map_append]
  exact List.mem_append_left _ (List.mem_append_left _ (List.mem_append_right _
    (List.mem_map_of_mem (List.mem_map_of_mem hq))))

theorem Project.Places.api (h : p.Places g) {a : Api} (ha : a ∈ p.apis) :
    a.entity ∈ g.mentioned := by
  rw [h, entityNodes, List.map_append, List.map_append, List.map_append]
  exact List.mem_append_left _ (List.mem_append_right _
    (List.mem_map_of_mem (List.mem_map_of_mem ha)))

theorem Project.known_eq_flatMap (p : Project) (names : List String) :
    p.known names = names.flatMap fun n => p.known [n] := by
  simp only [known]
  rw [← List.filter_flatMap, List.flatMap_singleton']

/-- The relation to a component that is used. -/
def useRelation (source : Entity) (name : String) : Relation :=
  ⟨source, componentEntity name, .uses, none⟩

theorem relates_addUses (h : g.WellFormed) (hp : p.Places g) {source : Entity}
    (hs : source ∈ g.mentioned) (names : List String) :
    g.Relates ((p.known names).map (useRelation source)) (addUses source g names) := by
  rw [p.known_eq_flatMap, List.map_flatMap]
  refine .foldl h fun g' n _ hg' hm => ?_
  have hn : g'.has (componentEntity n) ↔ n ∈ p.components.map (·.name) := by
    rw [hg'.has_iff, hm, hp.component_iff]
  by_cases hk : n ∈ p.components.map (·.name)
  · rw [Project.known, List.filter_cons_of_pos (by simpa using hk), if_pos (hn.2 hk)]
    exact .relate hg' (hm ▸ hs) (hg'.has_iff.1 (hn.2 hk))
  · rw [Project.known, List.filter_cons_of_neg (by simpa using hk), if_neg (hn.not.2 hk)]
    exact .refl hg'

theorem relates_addCalls (h : g.WellFormed) (hp : p.Places g) {q : Page} (hq : q ∈ p.pages) :
    g.Relates (q.apis.filterMap fun url => (p.calledApi? url).map fun a =>
      ⟨q.entity, a.entity, .calls, some url⟩) (addCalls p g q) := by
  rw [List.filterMap_eq_flatMap_toList]
  refine .foldl h fun g' url _ hg' hm => ?_
  cases ha : p.calledApi? url with
  | none => exact .refl hg'
  | some a =>
    exact .relate hg' (hm ▸ hp.page hq) (hm ▸ hp.api (Project.calledApi?_mem ha))

theorem Component.relation_usages (p : Project) (c : Component) :
    (c.usages p).map (·.relation) =
      (p.known (c.imports.filter (· ≠ c.name))).map (useRelation (componentEntity c.name)) :=
  List.map_map

theorem Page.relation_usages (p : Project) (q : Page) :
    (q.usages p).map (·.relation) = (p.known q.components).map (useRelation q.entity) ++
      q.apis.filterMap fun url => (p.calledApi? url).map fun a =>
        ⟨q.entity, a.entity, .calls, some url⟩ := by
  rw [usages, List.map_append, List.map_map, List.map_filterMap]
  simp only [Option.map_map]
  rfl

/-- Behind the extracted entities the graph has the relations of the usages. -/
theorem Project.relates_graph (p : Project) :
    (p.entityNodes.foldl Graph.addNew Graph.empty).Relates (p.usages.map (·.relation))
      p.graph := by
  have hextracts := p.extracts_entityNodes
  set extracted := p.entityNodes.foldl Graph.addNew Graph.empty
  have hplaces : ∀ {g : Graph}, g.mentioned = extracted.mentioned → p.Places g :=
    fun {g} hm e => by rw [hm, hextracts.mem_mentioned]
  have hcomponents : extracted.Relates (p.components.flatMap fun c => (c.usages p).map (·.relation))
      (p.components.foldl (fun g c =>
        addUses (componentEntity c.name) g (c.imports.filter (· ≠ c.name))) extracted) := by
    refine .foldl hextracts.wellFormed fun g c hc hg hm => ?_
    rw [c.relation_usages]
    refine relates_addUses hg (hplaces hm) ?_ _
    rw [(hplaces hm).component_iff]
    exact List.mem_map_of_mem hc
  rw [usages, List.map_append, List.map_flatMap, List.map_flatMap]
  refine hcomponents.trans (.foldl hcomponents.wellFormed fun g q hq hg hm => ?_)
  rw [q.relation_usages]
  have hp := hplaces (hm.trans hcomponents.mentioned)
  have huses := relates_addUses hg hp (hp.page hq) q.components
  exact huses.trans (relates_addCalls huses.wellFormed (fun e => huses.mentioned ▸ hp e) hq)

end Graph

/-! ## Edges -/

section Edges

variable {p : Project} {ids : Identifiers}

/-- The edge of a page to its layout, where that is drawn. -/
def Page.layoutEdges (q : Page) (ids : Identifiers) : List Edge :=
  ((q.layout.bind fun l => ids.lookup? ("layout:" ++ l)).map fun target =>
    { source := ids.idOf (Element.textOf ("page", q.path)), arrow := "..>", target
      label := some "uses layout" }).toList

namespace Project

namespace DrawnWith

/-- The identifier of the key of an element is that of a class. -/
theorem idOf_mem_ids (h : p.DrawnWith ids) {key : String × String}
    (hkey : key ∈ p.elements.map (·.key)) :
    ids.idOf (Element.textOf key) ∈ (drawnNodes p.diagram).map (·.id) := by
  rw [h.drawsElements.ids]
  exact List.mem_map_of_mem hkey

theorem lookup?_eq (h : p.DrawnWith ids) {e : Element} (he : e ∈ p.elements) :
    ids.lookup? (Element.textOf e.key) = some (ids.idOf (Element.textOf e.key)) :=
  (h.knows he).lookup?_eq

theorem knows_component_iff (h : p.DrawnWith ids) (name : String) :
    ids.Knows (Element.textOf ("component", name)) ↔ name ∈ p.components.map (·.name) := by
  have htext : Element.textOf ("component", name) =
      Element.textOf (Element.component { name }).key := rfl
  rw [h.knows_iff, htext, List.mem_map, List.mem_map]
  simp only [Element.textOf_key_inj]
  constructor
  · rintro ⟨e, he, hkey⟩
    cases e with
    | component c => exact ⟨c, by simpa [elements] using he, congrArg Prod.snd hkey⟩
    | _ => simp [Element.key] at hkey
  · rintro ⟨c, hc, rfl⟩
    exact ⟨.component c, by simpa [elements] using hc, rfl⟩

/-- A component is found just if the project has one of its name. -/
theorem filterMap_lookup? (h : p.DrawnWith ids) (names : List String) :
    names.filterMap (fun n => ids.lookup? ("component:" ++ n)) =
      (p.known names).map fun n => ids.idOf (Element.textOf ("component", n)) := by
  have hall := Identifiers.filterMap_lookup? ids (fun n => Element.textOf ("component", n))
    (fun _ id => id) (p := (· ∈ p.components.map (·.name)))
    fun n (_ : n ∈ names) => by rw [decide_eq_true_iff, h.knows_component_iff]
  simp only [Option.map_id'] at hall
  exact hall

theorem edges_component (h : p.DrawnWith ids) {c : Component} (hc : c ∈ p.components) :
    c.edges ids = (c.usages p).map (·.edge fun key => ids.idOf (Element.textOf key)) := by
  have hid : ids.lookup? ("component:" ++ c.name) = _ :=
    h.lookup?_eq (e := .component c) (by simpa [elements] using hc)
  rw [Component.edges, hid, h.filterMap_lookup?]
  dsimp only
  rw [List.map_map, Component.usages, List.map_map]
  rfl

theorem edges_page (h : p.DrawnWith ids) {q : Page} (hq : q ∈ p.pages) :
    p.pageEdges ids q = q.layoutEdges ids ++
      (q.usages p).map (·.edge fun key => ids.idOf (Element.textOf key)) := by
  have hid : ids.lookup? ("page:" ++ q.path) = _ :=
    h.lookup?_eq (e := .page q) (by simpa [elements] using hq)
  have hcalls : q.apis.filterMap (fun url =>
      (p.calledApi? url).bind fun a => ids.lookup? ("api:" ++ a.route)) =
        q.apis.filterMap fun url =>
          (p.calledApi? url).map fun a => ids.idOf (Element.textOf ("api", a.route)) := by
    refine List.filterMap_congr fun url _ => ?_
    cases ha : p.calledApi? url with
    | none => rfl
    | some a => exact h.lookup?_eq (e := .api a) (by simp [elements, calledApi?_mem ha])
  rw [pageEdges, hid, h.filterMap_lookup?, hcalls]
  dsimp only
  rw [List.map_map, List.map_filterMap, Page.usages, List.map_append, List.map_map,
    List.map_filterMap, List.append_assoc]
  simp only [Option.map_map]
  rfl

theorem edges_eq (h : p.DrawnWith ids) : p.diagram.edges =
    p.pages.flatMap (fun q => q.layoutEdges ids ++
      (q.usages p).map (·.edge fun key => ids.idOf (Element.textOf key))) ++
    p.components.flatMap fun c =>
      (c.usages p).map (·.edge fun key => ids.idOf (Element.textOf key)) := by
  rw [h.edges, List.flatMap_congr fun q hq => h.edges_page hq,
    List.flatMap_congr fun c hc => h.edges_component hc]

/-- Beside the edges to layouts those of the usages are drawn. -/
theorem edges_perm (h : p.DrawnWith ids) :
    (p.diagram.edges.filter (·.label ≠ some "uses layout")).Perm
      (p.usages.map (·.edge fun key => ids.idOf (Element.textOf key))) := by
  have hlayout : ∀ q : Page, (q.layoutEdges ids).filter (·.label ≠ some "uses layout") = [] := by
    intro q
    rw [Page.layoutEdges]
    cases q.layout.bind _ <;> rfl
  have husages : ∀ (name : String × String → String) (us : List Usage),
      (us.map (·.edge name)).filter (·.label ≠ some "uses layout") = us.map (·.edge name) := by
    refine fun name us => List.filter_eq_self.2 (List.forall_mem_map.2 fun u _ => ?_)
    cases u <;> rfl
  rw [h.edges_eq, List.filter_append, List.filter_flatMap, List.filter_flatMap]
  simp only [List.filter_append, hlayout, husages, List.nil_append]
  rw [← List.map_flatMap, ← List.map_flatMap, ← List.map_append]
  exact List.perm_append_comm.map _

theorem edges_usages_mem_ids (h : p.DrawnWith ids) {us : List Usage} (hus : us ⊆ p.usages) :
    ∀ e ∈ us.map (·.edge fun key => ids.idOf (Element.textOf key)),
      e.source ∈ (drawnNodes p.diagram).map (·.id) ∧
        e.target ∈ (drawnNodes p.diagram).map (·.id) :=
  List.forall_mem_map.2 fun u hu =>
    (key_mem_of_mem_usages u (hus hu)).imp h.idOf_mem_ids h.idOf_mem_ids

theorem layoutEdges_mem_ids (h : p.DrawnWith ids) {q : Page} (hq : q ∈ p.pages) :
    ∀ e ∈ q.layoutEdges ids, e.source ∈ (drawnNodes p.diagram).map (·.id) ∧
      e.target ∈ (drawnNodes p.diagram).map (·.id) := by
  intro e he
  obtain ⟨target, htarget, rfl⟩ := Option.map_eq_some_iff.1 (Option.mem_toList.1 he)
  obtain ⟨l, -, hl⟩ := Option.bind_eq_some_iff.1 htarget
  obtain ⟨hk, rfl⟩ := knows_of_lookup? hl
  obtain ⟨f, hf, hkey⟩ := List.mem_map.1 ((h.knows_iff _).1 hk)
  refine ⟨h.idOf_mem_ids (key_page_mem hq), ?_⟩
  rw [← hkey]
  exact h.idOf_mem_ids (List.mem_map_of_mem hf)

/-- Every edge joins the identifiers of two classes. -/
theorem edges_mem_ids (h : p.DrawnWith ids) : ∀ e ∈ p.diagram.edges,
    e.source ∈ (drawnNodes p.diagram).map (·.id) ∧
      e.target ∈ (drawnNodes p.diagram).map (·.id) := by
  rw [h.edges_eq]
  refine List.forall_mem_append.2 ⟨List.forall_mem_flatMap.2 fun q hq =>
    List.forall_mem_append.2 ⟨h.layoutEdges_mem_ids hq, h.edges_usages_mem_ids ?_⟩,
    List.forall_mem_flatMap.2 fun c hc => h.edges_usages_mem_ids ?_⟩
  · exact fun u hu => List.mem_append_right _ (List.mem_flatMap.2 ⟨q, hq, hu⟩)
  · exact fun u hu => List.mem_append_left _ (List.mem_flatMap.2 ⟨c, hc, hu⟩)

end DrawnWith

/-- The ends of usages are elements, and the diagram has the edges of the usages beside those to
layouts. Every edge joins two classes. -/
structure DrawsUsages (p : Project) (name : String × String → String) : Prop where
  elements : ∀ u ∈ p.usages,
    u.source.key ∈ p.elements.map (·.key) ∧ u.target.key ∈ p.elements.map (·.key)
  edges : (p.diagram.edges.filter (·.label ≠ some "uses layout")).Perm
    (p.usages.map (·.edge name))
  joined : ∀ e ∈ p.diagram.edges, e.source ∈ (drawnNodes p.diagram).map (·.id) ∧
    e.target ∈ (drawnNodes p.diagram).map (·.id)

/-- The usages in a project are what its graph relates and what its diagram joins. -/
structure ShowsUsages (p : Project) : Prop where
  dangling : p.graph.dangling = []
  relations : p.graph.relations = p.usages.map (·.relation)
  drawn : ∃ name, p.DrawsElements name ∧ p.DrawsUsages name

/-- Graph and diagram show the same usages. -/
theorem usages_shown (p : Project) : p.ShowsUsages := by
  obtain ⟨ids, h⟩ := p.exists_drawnWith
  have hrelates := p.relates_graph
  refine ⟨?_, ?_, _, h.drawsElements, key_mem_of_mem_usages, h.edges_perm, h.edges_mem_ids⟩
  · rw [hrelates.dangling, p.extracts_entityNodes.dangling]
  · rw [hrelates.relations, p.extracts_entityNodes.relations, List.nil_append]

end Project

end Edges

end Atlas.Nextjs
