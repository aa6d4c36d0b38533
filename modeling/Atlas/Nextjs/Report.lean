import Atlas.Nextjs.Graph
import Atlas.Identifiers
import Atlas.Diagram.PlantUml

/-!
# Next.js reports

The class diagram of a project and its Markdown summary.
-/

namespace Atlas.Nextjs

/-! ## Nodes -/

/-- The class of a component. -/
def Component.node (c : Component) (id : String) : Node :=
  let icon := if c.server then "S" else if c.client then "B" else "C"
  let n : Node :=
    { shape := .classBox, id, label := c.name
      stereotype := some ("(" ++ icon ++ ",#ADD1B2) component") }
  let n := n.addSection
    { title := some "props"
      lines := c.props.map fun p => (if p.required then "*" else "") ++ p.name ++ ": " ++ p.type }
  n.addSection
    { title := some "hooks"
      lines := c.hooks.map fun h => h.name ++ "(" ++ String.intercalate ", " h.dependencies ++ ")" }

/-- The line of a parameter. -/
def RouteParam.line (p : RouteParam) : String :=
  (if p.optional then "" else "*") ++ p.name ++ ": string" ++ if p.catchAll then "[]" else ""

/-- The class of a page. -/
def Page.node (p : Page) (id : String) : Node :=
  let icon := if p.params.isEmpty then "S" else "D"
  let n : Node :=
    { shape := .classBox, id, label := p.route, stereotype := some ("(" ++ icon ++ ",#87CEFA) page") }
  let n := n.addSection { title := some "params", lines := p.params.map (·.line) }
  let n := n.addSection { title := some "components", lines := p.components.map ("+ " ++ ·) }
  n.addSection { title := some "apis", lines := p.apis.map ("# " ++ ·) }

/-- The class of a layout. -/
def Layout.node (l : Layout) (id : String) : Node :=
  let icon := if l.root then "R" else "L"
  let n : Node :=
    { shape := .classBox, id, label := l.name
      stereotype := some ("(" ++ icon ++ ",#B0C4DE) layout") }
  let n := n.addSection { lines := ["route: " ++ l.route] }
  n.addSection { title := some "components", lines := l.components.map ("+ " ++ ·) }

/-- The letter shown for a library. -/
def StateLibrary.icon : StateLibrary → String
  | .redux => "R"
  | .zustand => "Z"
  | .jotai => "J"
  | .custom => "S"

/-- The class of a state module. -/
def StateModule.node (m : StateModule) (id : String) : Node :=
  let n : Node :=
    { shape := .classBox, id, label := m.name
      stereotype := some ("(" ++ m.library.icon ++ ",#FFB6C1) state") }
  let n := n.addSection
    { title := some "actions", lines := m.actions.map fun a => "+ " ++ a.name ++ "()" }
  let n := n.addSection { title := some "slices", lines := m.slices.map ("# " ++ ·) }
  n.addSection
    { title := some "atoms"
      lines := m.atoms.map fun a =>
        match a.default with
        | some d => "* " ++ a.name ++ " = " ++ d
        | none => "* " ++ a.name }

/-- The methods and the route of an API route. -/
def Api.label (a : Api) : String := String.intercalate "|" a.methods ++ " " ++ a.route

/-- The class of an API route. -/
def Api.node (a : Api) (id : String) : Node :=
  let n : Node :=
    { shape := .classBox, id, label := a.route, stereotype := some "(A,#98FB98) api" }
  let n := n.addSection { lines := [a.label] ++ (a.handler.map ("handler: " ++ ·)).toList }
  n.addSection { title := some "middleware", lines := a.middleware.map ("# " ++ ·) }

/-- The nodes of elements of one kind. Each takes the identifier of its key, made from its base if
that is new. -/
def elementNodes {α : Type} (kind : String) (key base : α → String) (node : α → String → Node)
    (ids : Identifiers) (elements : List α) : List Node × Identifiers :=
  elements.foldl (fun (nodes, ids) a =>
    let (id, ids) := ids.idFor (kind ++ ":" ++ key a) (base a)
    (nodes ++ [node a id], ids)) ([], ids)

/-! ## Edges -/

/-- The edges of a page to those of its layout, components and API routes that were drawn. -/
def Project.pageEdges (project : Project) (ids : Identifiers) (p : Page) : List Edge :=
  match ids.lookup? ("page:" ++ p.path) with
  | none => []
  | some source =>
    let edge (label target : String) : Edge :=
      { source, arrow := "..>", target, label := some label }
    ((p.layout.bind fun l => ids.lookup? ("layout:" ++ l)).map (edge "uses layout")).toList ++
      (p.components.filterMap fun c => ids.lookup? ("component:" ++ c)).map (edge "uses") ++
      (p.apis.filterMap fun url =>
        (project.calledApi? url).bind fun a => ids.lookup? ("api:" ++ a.route)).map (edge "calls")

/-- The edges of a component to those of its imports that were drawn. -/
def Component.edges (c : Component) (ids : Identifiers) : List Edge :=
  match ids.lookup? ("component:" ++ c.name) with
  | none => []
  | some source =>
    ((c.imports.filter (· ≠ c.name)).filterMap fun n => ids.lookup? ("component:" ++ n)).map
      fun target => { source, arrow := "..>", target, label := some "uses" }

/-! ## Diagram and summary -/

/-- The class diagram of a project. -/
def Project.diagram (p : Project) : Diagram :=
  let (components, ids) := elementNodes "component" Component.name
    (fun c => "component_" ++ c.name) Component.node .empty p.components
  let (pages, ids) := elementNodes "page" Page.path Page.path Page.node ids p.pages
  let (layouts, ids) := elementNodes "layout" Layout.path Layout.path Layout.node ids p.layouts
  let (states, ids) := elementNodes "state" StateModule.path StateModule.path StateModule.node ids
    p.stateModules
  let (apis, ids) := elementNodes "api" Api.route (fun a => "api_" ++ a.route) Api.node ids p.apis
  let d : Diagram :=
    { title := "Next.js Project: " ++ p.name, preamble := Diagram.standardPreamble "class"
      edges := p.pages.flatMap (p.pageEdges ids) ++ p.components.flatMap (·.edges ids) }
  [("Components", components), ("Pages", pages), ("Layouts", layouts), ("State", states),
    ("APIs", apis)].foldl (fun d (name, nodes) => d.addContainer { name, nodes }) d

/-- The PlantUML text of a project. -/
def Project.plantUml (p : Project) : String := PlantUml.render p.diagram

/-- The row of a page. -/
def Page.row (p : Page) : String :=
  "| " ++ p.route ++ " | " ++ p.path ++ " | " ++ String.intercalate ", " p.components ++ " |"

/-- The line of a component. -/
def Component.line (c : Component) : String :=
  "- **" ++ c.name ++ "** (`" ++ c.path ++ "`)" ++
    if c.props.isEmpty then "" else ": " ++ String.intercalate ", " (c.props.map (·.name))

/-- Lines under a heading, left out where there is nothing to list. -/
def listed {α : Type} (heading : List String) (items : List α) (line : α → String) :
    List String :=
  if items.isEmpty then [] else heading ++ items.map line ++ [""]

/-- The lines of the summary before the diagram. -/
def Project.summaryLines (p : Project) : List String :=
  ["# Next.js Project: " ++ p.name, ""] ++
    listed ["## Pages", "", "| Route | File | Components |", "|-------|------|------------|"]
      p.pages Page.row ++
    listed ["## Components", ""] p.components Component.line ++
    listed ["## API Routes", ""] p.apis
      (fun a => "- `" ++ a.label ++ "` (" ++ a.path ++ ")") ++
    listed ["## State", ""] p.stateModules
      (fun m => "- **" ++ m.name ++ "** [" ++ m.library.word ++ "]")

/-- The Markdown summary of a project. -/
def Project.markdown (p : Project) : String :=
  Text.unlines (p.summaryLines ++ ["## Diagram", "", "```plantuml"]) ++ p.plantUml ++ "```\n"

end Atlas.Nextjs
