import Atlas.Laravel.Project
import Atlas.Graph

/-!
# Entities of a Laravel project

Models with their relationships, controllers with the models they control, and routes with the
controllers that handle them.
-/

namespace Atlas.Laravel

/-- The relation of a relationship. -/
def RelationshipType.relationKind : RelationshipType → RelationKind
  | .hasOne => .hasOne
  | .hasMany => .hasMany
  | .belongsTo => .belongsTo
  | .belongsToMany => .belongsToMany

/-- The entity of a model name. -/
def modelEntity (name : String) : Entity := { kind := .model, name }

/-- The entity of a controller name. -/
def controllerEntity (name : String) : Entity := { kind := .controller, name }

/-- The entity of a route. -/
def Route.entity (r : Route) : Entity := { kind := .route, name := r.label }

/-- The relations of a model's relationships. -/
def Model.relations (m : Model) : List Relation :=
  m.relationships.map fun r =>
    ⟨modelEntity m.name, modelEntity r.relatedModel, r.type.relationKind, some r.method⟩

/-- The relations to the models that a controller works with. -/
def Controller.relations (c : Controller) (models : List Model) : List Relation :=
  (controlledModels c models).map fun name =>
    ⟨controllerEntity c.name, modelEntity name, .controls, none⟩

/-- The graph with a route and the controller that handles it. -/
def addRoute (g : Graph) (r : Route) : Graph :=
  let g := g.addNew
    { entity := r.entity
      attributes := [("source", r.source)] ++ (r.name.map fun n => ("name", n)).toList }
  match r.controller with
  | some c => g.relate ⟨r.entity, controllerEntity c, .handles, r.action⟩
  | none => g

/-- The graph of a project. -/
def Project.graph (p : Project) : Graph :=
  let g := p.models.foldl (fun g m => g.addNew
    { entity := modelEntity m.name
      attributes := (m.table.map fun t => ("table", t)).toList }) Graph.empty
  let g := p.controllers.foldl (fun g c => g.addNew
    { entity := controllerEntity c.name, attributes := [("path", c.path)] }) g
  let g := (p.models.flatMap Model.relations).foldl Graph.relate g
  let g := (p.controllers.flatMap (·.relations p.models)).foldl Graph.relate g
  p.routes.foldl addRoute g

end Atlas.Laravel
