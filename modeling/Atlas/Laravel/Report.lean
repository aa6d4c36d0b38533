import Atlas.Laravel.Project
import Atlas.Identifiers
import Atlas.Diagram.PlantUml

/-!
# Laravel reports

The class diagram of a project and its Markdown summary.
-/

namespace Atlas.Laravel

/-- The identifier of the class of a kind and a name. -/
def classId (ids : Identifiers) (kind name : String) : String × Identifiers :=
  ids.idFor (kind ++ ":" ++ name) name

/-! ## Nodes -/

/-- The class of a model. -/
def Model.node (m : Model) (id : String) : Node :=
  let n : Node := { shape := .classBox, id, label := m.name }
  let n := n.addSection
    { lines := (m.table.map fun t => ".. table: " ++ t ++ " ..").toList }
  let n := n.addSection { title := some "fillable", lines := m.fillable.map ("+ " ++ ·) }
  let n := n.addSection { title := some "hidden", lines := m.hidden.map ("- " ++ ·) }
  let n := n.addSection
    { title := some "casts", lines := m.casts.map fun c => "# " ++ c.field ++ " : " ++ c.castType }
  n.addSection
    { title := some "relationships"
      lines := m.relationships.map fun r => "* " ++ r.method ++ "() : " ++ r.type.method }

/-- The section of a list of middleware. -/
def middlewareSection (names : List String) : Section :=
  { title := some "middleware", lines := names.map ("# " ++ ·) }

/-- The line of a controller method. -/
def ControllerMethod.line (m : ControllerMethod) : String :=
  "+ " ++ m.name ++ "(" ++ String.intercalate ", " m.parameters ++ ") : " ++
    m.returnType.getD "mixed"

/-- The class of a controller. -/
def Controller.node (c : Controller) (id : String) : Node :=
  let n : Node :=
    { shape := .classBox, id, label := c.name, stereotype := some "(C,#ADD1B2) controller" }
  (n.addSection { lines := c.methods.map (·.line) }).addSection (middlewareSection c.middleware)

/-- The class of a route. -/
def Route.node (r : Route) (id : String) : Node :=
  let action := match r.controller, r.action with
    | some c, some a => ["action: " ++ c ++ "@" ++ a]
    | _, _ => []
  let n : Node := { shape := .classBox, id, label := r.uri, stereotype := some "(R,#FFA07A) route" }
  (n.addSection { lines := [r.label] ++ action ++ (r.name.map ("name: " ++ ·)).toList }).addSection
    (middlewareSection r.middleware)

/-- The class of a middleware. -/
def Middleware.node (m : Middleware) (id : String) : Node :=
  { shape := .classBox, id, label := m.name, stereotype := some "(M,#B4A7E5) middleware" }

/-- The class of a service provider. -/
def Provider.node (p : Provider) (id : String) : Node :=
  let n : Node := { shape := .classBox, id, label := p.name, stereotype := some "(P,#85BBF0) provider" }
  n.addSection
    { lines := ["type: " ++ p.parent.getD "ServiceProvider"] ++
        if p.deferred then ["deferred: true"] else [] }

/-- The nodes of a list of classes of one kind, each with the identifier of its name. -/
def classNodes {α : Type} (kind : String) (name : α → String) (node : α → String → Node)
    (ids : Identifiers) (items : List α) : List Node × Identifiers :=
  items.foldl (fun (nodes, ids) a =>
    let (id, ids) := classId ids kind (name a)
    (nodes ++ [node a id], ids)) ([], ids)

/-! ## Edges -/

/-- The edge of a relationship between two identifiers. -/
def Relationship.edge (r : Relationship) (source target : String) : Edge :=
  let edge (arrow one other : String) : Edge :=
    { source, arrow, target, sourceCount := some one, targetCount := some other,
      label := some r.method }
  match r.type with
  | .hasOne => edge "-->" "1" "1"
  | .hasMany => edge "-->" "1" "*"
  | .belongsTo => edge "<--" "1" "1"
  | .belongsToMany => { edge "<-->" "*" "*" with note := r.pivotTable.map ("pivot: " ++ ·) }

/-- The edges of the models' relationships. -/
def relationshipEdges (ids : Identifiers) (models : List Model) : List Edge × Identifiers :=
  models.foldl (fun (edges, ids) m =>
    let (source, ids) := classId ids "model" m.name
    m.relationships.foldl (fun (edges, ids) r =>
      let (target, ids) := classId ids "model" r.relatedModel
      (edges ++ [r.edge source target], ids)) (edges, ids)) ([], ids)

/-- The edges from the controllers to their models. -/
def controlEdges (ids : Identifiers) (p : Project) : List Edge × Identifiers :=
  p.controllers.foldl (fun (edges, ids) c =>
    let (source, ids) := classId ids "controller" c.name
    (controlledModels c p.models).foldl (fun (edges, ids) name =>
      let (target, ids) := classId ids "model" name
      (edges ++ [{ source, arrow := "..>", target, label := some "controls" }], ids))
      (edges, ids)) ([], ids)

/-- The classes of the routes, and the edges to their controllers. -/
def routeParts (ids : Identifiers) (routes : List Route) : List Node × List Edge × Identifiers :=
  routes.foldl (fun (nodes, edges, ids) r =>
    let (id, ids) := ids.fresh ("route_" ++ r.uri)
    match r.controller with
    | some c =>
      let (target, ids) := classId ids "controller" c
      (nodes ++ [r.node id], edges ++ [{ source := id, arrow := "..>", target, label := r.action }],
        ids)
    | none => (nodes ++ [r.node id], edges, ids)) ([], [], ids)

/-! ## Diagram and summary -/

/-- The class diagram of a project. -/
def Project.diagram (p : Project) : Diagram :=
  let (models, ids) := classNodes "model" Model.name Model.node .empty p.models
  let (controllers, ids) :=
    classNodes "controller" Controller.name Controller.node ids p.controllers
  let (middleware, ids) :=
    classNodes "middleware" Middleware.name Middleware.node ids p.middleware
  let (providers, ids) := classNodes "provider" Provider.name Provider.node ids p.providers
  let (relationships, ids) := relationshipEdges ids p.models
  let (controls, ids) := controlEdges ids p
  let (routes, handles, _) := routeParts ids p.routes
  let d : Diagram :=
    { title := "Laravel Project: " ++ p.name, preamble := Diagram.standardPreamble "class",
      edges := relationships ++ controls ++ handles }
  [("Models", models), ("Controllers", controllers), ("Middleware", middleware),
    ("Providers", providers), ("Routes", routes)].foldl
    (fun d (name, nodes) => d.addContainer { name, nodes }) d

/-- The PlantUML text of a project. -/
def Project.plantUml (p : Project) : String := PlantUml.render p.diagram

/-- The summary of a model. -/
def Model.markdown (m : Model) : List String :=
  ["### " ++ m.name, "", "Table: `" ++ m.table.getD "(convention)" ++ "`", ""] ++
    (if m.fillable.isEmpty then [] else ["Fillable: " ++ String.intercalate ", " m.fillable, ""]) ++
    (m.relationships.map fun r =>
      "- `" ++ r.method ++ "()` " ++ r.type.method ++ " " ++ r.relatedModel) ++
    (if m.relationships.isEmpty then [] else [""])

/-- The row of a route. -/
def Route.row (r : Route) : String :=
  let action := match r.controller, r.action with
    | some c, some a => c ++ "@" ++ a
    | _, _ => ""
  "| " ++ r.method ++ " | " ++ r.uri ++ " | " ++ action ++ " | " ++ r.name.getD "" ++ " |"

/-- Lines under a heading, left out where there is nothing to list. -/
def listed {α : Type} (heading : List String) (items : List α) (line : α → String) :
    List String :=
  if items.isEmpty then [] else heading ++ items.map line ++ [""]

/-- The lines of the summary before the diagram. -/
def Project.summaryLines (p : Project) : List String :=
  ["# Laravel Project: " ++ p.name, ""] ++
    (if p.models.isEmpty then [] else ["## Models", ""] ++ p.models.flatMap Model.markdown) ++
    listed ["## Controllers", ""] p.controllers (fun c =>
      "- **" ++ c.name ++ "**: " ++ String.intercalate ", " (c.methods.map (·.name))) ++
    listed ["## Routes", "", "| Method | URI | Action | Name |",
      "|--------|-----|--------|------|"] p.routes Route.row ++
    listed ["## Migrations", ""] p.migrations (fun m =>
      "- `" ++ m.name ++ "` (" ++ m.table ++ "): " ++
        String.intercalate ", " (m.columns.map (·.name)))

/-- The Markdown summary of a project. -/
def Project.markdown (p : Project) : String :=
  Text.unlines (p.summaryLines ++ ["## Diagram", "", "```plantuml"]) ++ p.plantUml ++ "```\n"

end Atlas.Laravel
