import Atlas.Nextjs.Scan
import Atlas.Proofs.Files.Clean
import Atlas.Proofs.Files.Tree
import Atlas.Proofs.Nextjs.Elements

/-!
# Sources of a Next.js project

The elements of a tree are read from its sources, each with the path of its source
(`readsSources_projectOf`). Sources that are met in an ordered tree are different ones
(`nodup_names`), and where names hold neither slashes nor backslashes they have different paths
(`nodup_paths`). So pages, layouts and state modules always have keys of their own
(`nodup_sourcePaths`), and it is components of one name and API routes of one address that a project
does not keep apart (`elements_shown`, `components_merged`).
-/

set_option linter.unusedSectionVars false

namespace Atlas

namespace FileTree

/-- Paths show the names of the tree as they are. -/
def PlainNames (t : FileTree) : Prop :=
  ∀ p ∈ t.places, ∀ n ∈ p.1, Path.IsPlain n

instance (t : FileTree) : Decidable t.PlainNames :=
  inferInstanceAs (Decidable (∀ p ∈ t.places, ∀ n ∈ p.1, Path.IsPlain n))

end FileTree

namespace Nextjs

open PlantUml

/-! ## Scripts below several directories -/

section Scripts

variable {root : FileTree} {directory : List String}

theorem exists_of_mem_scripts {s : Source} (hs : s ∈ scripts root directory) :
    ∃ es, root.at? directory = some (.directory es) ∧ s.names = directory ++ s.below ∧
      ∃ f ∈ (FileTree.directory es).sourceFiles, f.path = s.below := by
  unfold scripts at hs
  split at hs
  · next es hes =>
    obtain ⟨hs, -⟩ := List.mem_filter.1 hs
    obtain ⟨f, hf, rfl⟩ := List.mem_map.1 hs
    exact ⟨es, hes, rfl, f, hf, rfl⟩
  · cases hs

/-- The names of a source lead to a file of the tree. -/
theorem isPlain_of_mem_scripts (h : root.Ordered) (hplain : root.PlainNames) {s : Source}
    (hs : s ∈ scripts root directory) : ∀ n ∈ s.names, Path.IsPlain n := by
  obtain ⟨es, hes, hnames, f, hf, hbelow⟩ := exists_of_mem_scripts hs
  have hfile : root.at? s.names = some (.file f.content) := by
    rw [hnames, ← hbelow, FileTree.at?_append, hes]
    exact ((FileTree.mem_sourceFiles (h.at? hes)).1 hf).1
  exact hplain _ (h.mem_places.2 hfile)

theorem pairwise_scripts (h : root.Ordered) (directory : List String) :
    (scripts root directory).Pairwise fun s t => s.names ≠ t.names := by
  unfold scripts
  split
  · next es hes =>
    refine List.Pairwise.filter _ (List.pairwise_map.2 ?_)
    refine (FileTree.pairwise_sourceFiles (h.at? hes)).imp fun hlt he => ?_
    exact hlt.ne (List.append_cancel_left he)
  · exact List.Pairwise.nil

/-- The directories of a list that none leads through another of them. -/
def Separate (ds : List (List String)) : Prop :=
  ds.Pairwise fun d e => ¬d <+: e ∧ ¬e <+: d

instance (ds : List (List String)) : Decidable (Separate ds) :=
  inferInstanceAs (Decidable (ds.Pairwise fun d e => ¬d <+: e ∧ ¬e <+: d))

theorem nodup_names (h : root.Ordered) {ds : List (List String)} (hds : Separate ds) :
    ((ds.flatMap (scripts root)).map (·.names)).Nodup := by
  refine List.pairwise_map.2 (List.pairwise_flatMap.2
    ⟨fun d _ => pairwise_scripts h d, hds.imp fun hde s hs t ht he => ?_⟩)
  obtain ⟨-, -, hs, -⟩ := exists_of_mem_scripts hs
  obtain ⟨-, -, ht, -⟩ := exists_of_mem_scripts ht
  have hprefix := List.prefix_or_prefix_of_prefix (hs ▸ List.prefix_append _ _)
    (he ▸ ht ▸ List.prefix_append _ _)
  exact hprefix.elim hde.1 hde.2

theorem nodup_paths (h : root.Ordered) (hplain : root.PlainNames) {ds : List (List String)}
    (hds : Separate ds) (hne : ∀ d ∈ ds, d ≠ []) :
    ((ds.flatMap (scripts root)).map (·.path)).Nodup := by
  have hmap : (ds.flatMap (scripts root)).map (·.path) =
      ((ds.flatMap (scripts root)).map (·.names)).map Path.ofNames := by
    rw [List.map_map]
    rfl
  have hnames : ∀ s ∈ ds.flatMap (scripts root), s.names ≠ [] ∧ ∀ n ∈ s.names, Path.IsPlain n := by
    intro s hs
    obtain ⟨d, hd, hs⟩ := List.mem_flatMap.1 hs
    obtain ⟨-, -, he, -⟩ := exists_of_mem_scripts hs
    exact ⟨fun hnil => hne d hd (List.append_eq_nil_iff.1 (he ▸ hnil)).1,
      isPlain_of_mem_scripts h hplain hs⟩
  rw [hmap]
  refine (nodup_names h hds).map_on (List.forall_mem_map.2 fun s hs =>
    List.forall_mem_map.2 fun t ht => ?_)
  exact (Path.ofNames_inj (hnames s hs).1 (hnames t ht).1 (hnames s hs).2 (hnames t ht).2).1

end Scripts

/-! ## What the sources declare -/

namespace Source

/-- Whether a source of the app router declares an API route. -/
def isAppApi (s : Source) : Bool :=
  s.isApi && s.stem == "route"

/-- Whether a source of the app router declares a page. -/
def isAppPage (s : Source) : Bool :=
  !s.isApi && s.stem == "page" && !s.hasExtension ["ts"]

/-- Whether a source of the app router declares a layout. -/
def isLayout (s : Source) : Bool :=
  !s.isApi && s.stem == "layout"

/-- Whether a source of the pages router declares a page. -/
def isPagesPage (s : Source) : Bool :=
  !s.isApi && !(Text.startsWith "_" s.stem || s.hasExtension ["ts"])

/-- The route of a source of the app router. -/
def appRoute (s : Source) : String :=
  appRouteOf s.below.dropLast

/-- The route of a source of the pages router. -/
def pagesRoute (s : Source) : String :=
  Nextjs.pagesRoute (String.intercalate "/" s.below)

end Source

/-- A source of the app router declares one thing at most. -/
theorem Source.appKinds_disjoint (s : Source) : (s.isAppApi → s.isAppPage = false) ∧
    (s.isAppApi → s.isLayout = false) ∧ (s.isAppPage → s.isLayout = false) := by
  cases hapi : s.isApi <;> simp +contextual [isAppApi, isAppPage, isLayout, hapi]

theorem addAppSource_eq (p : Project) (s : Source) : addAppSource p s =
    if s.isAppApi then { p with apis := p.apis ++ [apiOf s s.appRoute] }
    else if s.isAppPage then { p with pages := p.pages ++ [pageOf s s.appRoute .app] }
    else if s.isLayout then { p with layouts := p.layouts ++ [layoutOf s s.appRoute] }
    else p :=
  rfl

theorem foldl_addAppSource (p : Project) (ss : List Source) : ss.foldl addAppSource p =
    { p with
      apis := p.apis ++ (ss.filter (·.isAppApi)).map fun s => apiOf s s.appRoute
      pages := p.pages ++ (ss.filter (·.isAppPage)).map fun s => pageOf s s.appRoute .app
      layouts := p.layouts ++ (ss.filter (·.isLayout)).map fun s => layoutOf s s.appRoute } := by
  induction ss generalizing p with
  | nil => simp
  | cons s ss ih =>
    obtain ⟨hpage, hlayout, hlayout'⟩ := s.appKinds_disjoint
    rw [List.foldl_cons, ih, addAppSource_eq]
    cases hs : s.isAppApi with
    | true => simp [hs, hpage hs, hlayout hs]
    | false =>
      cases hs' : s.isAppPage with
      | true => simp [hs, hs', hlayout' hs']
      | false => cases hs'' : s.isLayout <;> simp [hs, hs', hs'']

theorem addPagesSource_eq (p : Project) (s : Source) : addPagesSource p s =
    if s.isApi then { p with apis := p.apis ++ [apiOf s s.pagesRoute] }
    else if s.isPagesPage then { p with pages := p.pages ++ [pageOf s s.pagesRoute .pages] }
    else p := by
  unfold addPagesSource Source.isPagesPage Source.pagesRoute
  cases s.isApi <;> cases Text.startsWith "_" s.stem || s.hasExtension ["ts"] <;> rfl

theorem foldl_addPagesSource (p : Project) (ss : List Source) : ss.foldl addPagesSource p =
    { p with
      apis := p.apis ++ (ss.filter (·.isApi)).map fun s => apiOf s s.pagesRoute
      pages := p.pages ++
        (ss.filter (·.isPagesPage)).map fun s => pageOf s s.pagesRoute .pages } := by
  induction ss generalizing p with
  | nil => simp
  | cons s ss ih =>
    rw [List.foldl_cons, ih, addPagesSource_eq]
    cases hs : s.isApi with
    | true => simp [hs, Source.isPagesPage]
    | false => cases hs' : s.isPagesPage <;> simp [hs, hs']

/-! ## What the rules keep -/

/-- A component has the name and the path of its source, whatever the rules read from that. -/
theorem path_name_componentRules (text : String) (c : Component) :
    ((componentRules.apply text c).path, (componentRules.apply text c).name) =
      (c.path, c.name) := by
  refine RuleSet.apply_keeps (f := fun c : Component => (c.path, c.name)) ?_ text c
  simp [componentRules, apply_ite Component.path, apply_ite Component.name]

theorem path_pageOf (s : Source) (route : String) (router : Router) :
    (pageOf s route router).path = s.path :=
  RuleSet.apply_keeps (f := Page.path) (by simp [pageRules]) s.text _

theorem path_layoutOf (s : Source) (route : String) : (layoutOf s route).path = s.path :=
  RuleSet.apply_keeps (f := Layout.path) (by simp [layoutRules]) s.text _

/-- An API route has the route and the path of its source, with or without a method of its own. -/
theorem path_route_apiOf (s : Source) (route : String) :
    ((apiOf s route).path, (apiOf s route).route) = (s.path, route) := by
  have hrules : ∀ r ∈ apiRules, ∀ m (a : Api),
      ((r.update m a).path, (r.update m a).route) = (a.path, a.route) := by
    simp [apiRules]
  have h := RuleSet.apply_keeps (f := fun a : Api => (a.path, a.route)) hrules s.text
    { route, path := s.path }
  rw [apiOf]
  split_ifs <;> exact h

theorem path_stateModuleOf (s : Source) : (stateModuleOf s).path = s.path := by
  have h : ∀ library : StateLibrary, ∀ r ∈ library.rules, ∀ m (a : StateModule),
      (r.update m a).path = a.path := by
    intro library
    cases library with
    | redux => simp [StateLibrary.rules, reduxRules, apply_ite StateModule.path]
    | zustand => simp [StateLibrary.rules, zustandRules]
    | jotai => simp [StateLibrary.rules, jotaiRules]
    | custom => exact List.forall_mem_nil _
  exact RuleSet.apply_keeps (h _) s.text _

theorem path_assignLayout (ls : List Layout) (q : Page) : (assignLayout ls q).path = q.path := by
  unfold assignLayout
  split <;> rfl

/-! ## Sources of each kind -/

/-- The name of a component that a source declares. -/
def Source.componentName (s : Source) : String :=
  if s.stem = "index" then s.names.dropLast.getLast?.getD "" else s.stem

/-- Whether a source declares a component. -/
def Source.isComponent (s : Source) : Bool :=
  s.hasExtension ["tsx", "jsx", "js"] && isComponentName s.componentName

/-- The sources of components. -/
def componentSources (root : FileTree) : List Source :=
  ((places "components").flatMap (scripts root)).filter (·.isComponent)

/-- The sources of pages, those of the app router first at each place. -/
def pageSources (root : FileTree) : List Source :=
  [["src"], []].flatMap fun base =>
    (scripts root (base ++ ["app"])).filter (·.isAppPage) ++
      (scripts root (base ++ ["pages"])).filter (·.isPagesPage)

/-- The sources of layouts. -/
def layoutSources (root : FileTree) : List Source :=
  [["src"], []].flatMap fun base => (scripts root (base ++ ["app"])).filter (·.isLayout)

/-- The sources of state modules. -/
def stateSources (root : FileTree) : List Source :=
  [["src", "store"], ["src", "state"], ["store"], ["state"]].flatMap (scripts root)

/-- The sources of API routes with the routes they serve. -/
def apiSources (root : FileTree) : List (Source × String) :=
  [["src"], []].flatMap fun base =>
    ((scripts root (base ++ ["app"])).filter (·.isAppApi)).map (fun s => (s, s.appRoute)) ++
      ((scripts root (base ++ ["pages"])).filter (·.isApi)).map fun s => (s, s.pagesRoute)

/-- The elements of a project are those of the sources of a tree. -/
structure Project.ReadsSources (p : Project) (root : FileTree) : Prop where
  components : p.components.map (fun c => (c.path, c.name)) =
    (componentSources root).map fun s => (s.path, s.componentName)
  pages : p.pages.map (·.path) = (pageSources root).map (·.path)
  layouts : p.layouts.map (·.path) = (layoutSources root).map (·.path)
  stateModules : p.stateModules.map (·.path) = (stateSources root).map (·.path)
  apis : p.apis.map (fun a => (a.path, a.route)) =
    (apiSources root).map fun s => (s.1.path, s.2)

theorem componentOf?_eq (s : Source) : componentOf? s =
    if s.isComponent then
      some (componentRules.apply s.text { name := s.componentName, path := s.path })
    else none :=
  rfl

theorem map_filterMap_componentOf? (ss : List Source) :
    (ss.filterMap componentOf?).map (fun c => (c.path, c.name)) =
      (ss.filter (·.isComponent)).map fun s => (s.path, s.componentName) := by
  induction ss with
  | nil => rfl
  | cons s ss ih =>
    rw [List.filterMap_cons, List.filter_cons, componentOf?_eq]
    cases s.isComponent with
    | false => exact ih
    | true => simpa [path_name_componentRules] using ih

theorem readsSources_projectOf (name : String) (root : FileTree) :
    (projectOf name root).ReadsSources root where
  components := by
    simp only [projectOf, assignLayouts, List.foldl_cons, List.foldl_nil, addRouters,
      foldl_addAppSource, foldl_addPagesSource]
    exact map_filterMap_componentOf? _
  pages := by
    simp [projectOf, assignLayouts, addRouters, foldl_addAppSource, foldl_addPagesSource,
      pageSources, path_assignLayout, path_pageOf, Function.comp_def]
  layouts := by
    simp [projectOf, assignLayouts, addRouters, foldl_addAppSource, foldl_addPagesSource,
      layoutSources, path_layoutOf, Function.comp_def]
  stateModules := by
    simp [projectOf, assignLayouts, stateSources, path_stateModuleOf, Function.comp_def]
  apis := by
    simp [projectOf, assignLayouts, addRouters, foldl_addAppSource, foldl_addPagesSource,
      apiSources, path_route_apiOf, Function.comp_def]

/-! ## Paths of sources -/

/-- The directories of the routers. -/
def routerDirectories : List (List String) :=
  [["src", "app"], ["src", "pages"], ["app"], ["pages"]]

theorem pageSources_sublist (root : FileTree) :
    (pageSources root).Sublist (routerDirectories.flatMap (scripts root)) := by
  simp only [pageSources, routerDirectories, List.flatMap_cons, List.flatMap_nil, List.append_nil,
    List.append_assoc, List.cons_append, List.nil_append]
  exact List.filter_sublist.append (List.filter_sublist.append
    (List.filter_sublist.append List.filter_sublist))

theorem layoutSources_sublist (root : FileTree) :
    (layoutSources root).Sublist (routerDirectories.flatMap (scripts root)) := by
  simp only [layoutSources, routerDirectories, List.flatMap_cons, List.flatMap_nil, List.append_nil,
    List.cons_append, List.nil_append]
  exact List.filter_sublist.append ((List.filter_sublist.trans (List.sublist_append_left _ _)).trans
    (List.sublist_append_right _ _))

/-- Pages, layouts and state modules of a tree that is ordered have different paths. -/
theorem nodup_sourcePaths {root : FileTree} (h : root.Ordered) (hplain : root.PlainNames) :
    ((pageSources root).map (·.path)).Nodup ∧ ((layoutSources root).map (·.path)).Nodup ∧
      ((stateSources root).map (·.path)).Nodup := by
  have hrouters : ((routerDirectories.flatMap (scripts root)).map (·.path)).Nodup :=
    nodup_paths h hplain (by decide) (by decide)
  exact ⟨hrouters.sublist ((pageSources_sublist root).map _),
    hrouters.sublist ((layoutSources_sublist root).map _),
    nodup_paths h hplain (by decide) (by decide)⟩

/-! ## Elements of a tree -/

/-- What the graph and the diagram of a project make of its elements, and when they keep them
apart. -/
structure Project.ShowsElements (p : Project) : Prop where
  entities : p.graph.entitiesOfKind .component = (firsts (·.name) p.components).map (·.entityNode)
  drawn : ∃ name, p.DrawsElements name
  kept : p.KeepsElements ↔ (p.elements.map (·.key)).Nodup

/-- The elements of a tree are those of its sources. The graph extracts the first component of each
name, and the diagram draws all elements, those of one key with one identifier. Pages, layouts and
state modules have keys of their own, so the elements of a tree are kept apart just if no two
sources of components have the same name, in whatever directories they are, and no two API routes
are served at the same address. -/
theorem elements_shown (name : String) (root : FileTree) :
    let p := projectOf name root
    p.ReadsSources root ∧ p.ShowsElements ∧
    (root.Ordered → root.PlainNames → (p.KeepsElements ↔
      ((componentSources root).map (·.componentName)).Nodup ∧
        ((apiSources root).map (·.2)).Nodup)) := by
  intro p
  have hsources := readsSources_projectOf name root
  refine ⟨hsources, ⟨p.components_graph, p.exists_drawsElements, Project.keepsElements_iff⟩,
    fun h hplain => ?_⟩
  obtain ⟨hpages, hlayouts, hstates⟩ := nodup_sourcePaths h hplain
  have hcomponents : p.components.map (·.name) = (componentSources root).map (·.componentName) := by
    have hnames := congrArg (List.map Prod.snd) hsources.components
    rwa [List.map_map, List.map_map] at hnames
  have hapis : p.apis.map (·.route) = (apiSources root).map (·.2) := by
    have hroutes := congrArg (List.map Prod.snd) hsources.apis
    rwa [List.map_map, List.map_map] at hroutes
  rw [Project.keepsElements_iff, Project.nodup_keys_iff, hcomponents, hapis, hsources.pages,
    hsources.layouts, hsources.stateModules]
  exact ⟨fun hkeys => ⟨hkeys.1, hkeys.2.2.2.2⟩,
    fun hkeys => ⟨hkeys.1, hpages, hlayouts, hstates, hkeys.2⟩⟩

/-- The elements of a page and of a component are kept apart. -/
theorem elements_shown_sample :
    let root := FileTree.directory [("app", .directory [("page.tsx", .file [])]),
      ("components", .directory [("Card.tsx", .file [])])]
    root.Ordered ∧ root.PlainNames ∧ (projectOf "proj" root).KeepsElements := by
  intro root
  have hfile : ∀ name : String, (FileTree.directory [(name, .file [])]).Ordered := fun name =>
    .directory (by simp [InOrder]) fun e he => List.mem_singleton.1 he ▸ .file _
  have hordered : root.Ordered := by
    refine .directory (List.pairwise_pair.2 (by decide)) fun e he => ?_
    rcases List.mem_pair.1 he with rfl | rfl
    · exact hfile _
    · exact hfile _
  have hplain : root.PlainNames := by decide +kernel
  refine ⟨hordered, hplain, ((elements_shown "proj" root).2.2 hordered hplain).2 ⟨?_, ?_⟩⟩
  · decide +kernel
  · decide +kernel

/-- Two components with one file name in two directories are extracted as one entity and drawn with
one identifier. -/
theorem components_merged :
    let file := FileTree.ofText "export default function Card() \x7b return null \x7d\n"
    let root := FileTree.directory [("components", .directory
      [("cart", .directory [("Card.tsx", file)]), ("user", .directory [("Card.tsx", file)])])]
    let p := projectOf "proj" root
    p.components.map (·.path) = ["components/cart/Card.tsx", "components/user/Card.tsx"] ∧
    (p.graph.entitiesOfKind .component).length = 1 ∧
    (drawnNodes p.diagram).map (·.id) = ["component_Card", "component_Card"] := by
  decide +kernel

end Nextjs

end Atlas
