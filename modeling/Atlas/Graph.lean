import Atlas.Error
import Atlas.Places

/-!
# Entity graph

The entities found in a project and the directed relations between them. Each entity stands in the
graph once, at the place where it was first mentioned, and relations run between such places. An
entity that is only the end of a relation is dangling until it is added itself.
-/

namespace Atlas

/-- What an entity is. -/
inductive EntityKind where
  | package
  | struct
  | interface
  | function
  | dockerfile
  | stage
  | composeService
  | network
  | volume
  | deployment
  | statefulSet
  | service
  | ingress
  | namespace
  | resource
  | schema
  | table
  | view
  | materializedView
  | model
  | controller
  | route
  | component
  | page
  | api
  | stateStore
  deriving DecidableEq, Repr

namespace EntityKind

/-- Every kind. -/
def all : List EntityKind :=
  [.package, .struct, .interface, .function, .dockerfile, .stage, .composeService, .network,
    .volume, .deployment, .statefulSet, .service, .ingress, .namespace, .resource, .schema, .table,
    .view, .materializedView, .model, .controller, .route, .component, .page, .api, .stateStore]

/-- The word by which records name the kind. -/
def code : EntityKind → String
  | .package => "package"
  | .struct => "struct"
  | .interface => "interface"
  | .function => "function"
  | .dockerfile => "dockerfile"
  | .stage => "stage"
  | .composeService => "compose_service"
  | .network => "network"
  | .volume => "volume"
  | .deployment => "deployment"
  | .statefulSet => "stateful_set"
  | .service => "service"
  | .ingress => "ingress"
  | .namespace => "namespace"
  | .resource => "resource"
  | .schema => "schema"
  | .table => "table"
  | .view => "view"
  | .materializedView => "materialized_view"
  | .model => "model"
  | .controller => "controller"
  | .route => "route"
  | .component => "component"
  | .page => "page"
  | .api => "api"
  | .stateStore => "state_store"

/-- The word shown for the kind: the kinds of cluster resources as manifests write them. -/
def label : EntityKind → String
  | .deployment => "Deployment"
  | .statefulSet => "StatefulSet"
  | .service => "Service"
  | .ingress => "Ingress"
  | .namespace => "Namespace"
  | .stateStore => "state"
  | k => k.code

/-- The kind of a code. -/
def ofCode? (s : String) : Option EntityKind := all.find? (·.code == s)

theorem ofCode?_code (k : EntityKind) : ofCode? k.code = some k := by
  cases k <;> decide +kernel

end EntityKind

/-- How two entities are related. The direction is fixed for each kind. -/
inductive RelationKind where
  | selects
  | routes
  | dependsOn
  | references
  | contains
  | inherits
  | calls
  | implements
  | uses
  | connects
  | mounts
  | controls
  | handles
  | hasOne
  | hasMany
  | belongsTo
  | belongsToMany
  deriving DecidableEq, Repr

namespace RelationKind

/-- Every kind. -/
def all : List RelationKind :=
  [.selects, .routes, .dependsOn, .references, .contains, .inherits, .calls, .implements, .uses,
    .connects, .mounts, .controls, .handles, .hasOne, .hasMany, .belongsTo, .belongsToMany]

/-- The word for the kind. -/
def code : RelationKind → String
  | .selects => "selects"
  | .routes => "routes"
  | .dependsOn => "depends_on"
  | .references => "references"
  | .contains => "contains"
  | .inherits => "inherits"
  | .calls => "calls"
  | .implements => "implements"
  | .uses => "uses"
  | .connects => "connects"
  | .mounts => "mounts"
  | .controls => "controls"
  | .handles => "handles"
  | .hasOne => "has_one"
  | .hasMany => "has_many"
  | .belongsTo => "belongs_to"
  | .belongsToMany => "belongs_to_many"

/-- The kind of a code. -/
def ofCode? (s : String) : Option RelationKind := all.find? (·.code == s)

theorem ofCode?_code (k : RelationKind) : ofCode? k.code = some k := by
  cases k <;> decide +kernel

end RelationKind

/-- The key of an entity. -/
structure Entity where
  kind : EntityKind
  name : String
  /-- What holds the entity, where its name alone does not tell it from others. -/
  scope : Option String := none
  deriving DecidableEq, Repr

/-- The text shown for an entity. -/
def Entity.label (e : Entity) : String :=
  match e.scope with
  | some s => e.kind.label ++ ":" ++ s ++ "/" ++ e.name
  | none => e.kind.label ++ ":" ++ e.name

/-- An entity in a graph, and what is known of it. -/
structure EntityNode where
  entity : Entity
  doc : Option String := none
  attributes : List (String × String) := []
  /-- Whether it is so far only the end of a relation. -/
  dangling : Bool := false
  deriving DecidableEq, Repr

/-- The node with a text about it; an empty text is none. -/
def EntityNode.withDoc (n : EntityNode) (doc : Option String) : EntityNode :=
  { n with doc := doc.filter (· ≠ "") }

/-- A directed relation. -/
structure Relation where
  source : Entity
  target : Entity
  kind : RelationKind
  label : Option String := none
  deriving DecidableEq, Repr

/-- A relation as it is kept: from one place among the nodes to another. -/
structure Link where
  source : Nat
  target : Nat
  kind : RelationKind
  label : Option String := none
  deriving DecidableEq, Repr

/-- Entities in the order of their first mention and relations in the order they were added. -/
structure Graph where
  nodes : List EntityNode := []
  /-- The place of each entity among the nodes. -/
  places : Places Entity := []
  links : List Link := []
  deriving DecidableEq, Repr

namespace Graph

/-- No entity and no relation. -/
def empty : Graph := {}

/-! ## Nodes -/

/-- The place of an entity. -/
def index? (g : Graph) (e : Entity) : Option Nat := g.places.lookup e

/-- The node of an entity. -/
def get? (g : Graph) (e : Entity) : Option EntityNode := (g.index? e).bind (g.nodes[·]?)

/-- Whether the entity stands in the graph, extracted or dangling. -/
def has (g : Graph) (e : Entity) : Bool := (g.index? e).isSome

/-- The graph with one more node, whose entity stood nowhere before. -/
def push (g : Graph) (n : EntityNode) : Graph :=
  { g with nodes := g.nodes ++ [n], places := (n.entity, g.nodes.length) :: g.places }

/-- The graph with another node at a place. -/
def fill (g : Graph) (i : Nat) (n : EntityNode) : Graph := { g with nodes := g.nodes.set i n }

/-- Adds an extracted entity and gives its place. A dangling one takes the new node in its place;
one that was extracted before is a duplicate. -/
def add (g : Graph) (n : EntityNode) : Result (Nat × Graph) :=
  match g.index? n.entity with
  | none => .ok (g.nodes.length, g.push n)
  | some i =>
    if (g.nodes[i]?).any (·.dangling) then .ok (i, g.fill i n)
    else .error (.duplicate n.entity.label)

/-- The graph with an extracted entity, or as it is where that is a duplicate. -/
def addNew (g : Graph) (n : EntityNode) : Graph :=
  match g.add n with
  | .ok (_, g) => g
  | .error _ => g

/-- The place of an entity, which is held by `n` from here on if it had none. -/
def place (g : Graph) (n : EntityNode) : Nat × Graph :=
  match g.index? n.entity with
  | some i => (i, g)
  | none => (g.nodes.length, g.push n)

/-- The place of an entity, which is extracted here if it is not yet in the graph. -/
def ensure (g : Graph) (e : Entity) : Nat × Graph := g.place { entity := e }

/-- The extracted entities. -/
def entities (g : Graph) : List EntityNode := g.nodes.filter (!·.dangling)

/-- The extracted entities of a kind. -/
def entitiesOfKind (g : Graph) (k : EntityKind) : List EntityNode :=
  g.nodes.filter fun n => !n.dangling && n.entity.kind = k

/-- The entities that are only ends of relations. -/
def dangling (g : Graph) : List Entity := (g.nodes.filter (·.dangling)).map (·.entity)

/-- How many entities were extracted. -/
def entityCount (g : Graph) : Nat := g.nodes.countP (!·.dangling)

/-! ## Relations -/

/-- The graph with one more link. -/
def link (g : Graph) (l : Link) : Graph := { g with links := g.links ++ [l] }

/-- The graph with one more relation. Ends that are not in the graph become dangling. -/
def relate (g : Graph) (r : Relation) : Graph :=
  let (source, g) := g.place { entity := r.source, dangling := true }
  let (target, g) := g.place { entity := r.target, dangling := true }
  g.link { source, target, kind := r.kind, label := r.label }

/-- The relation that a link stands for, if there are nodes at both its ends. -/
def relation? (g : Graph) (l : Link) : Option Relation := do
  return {
    source := (← g.nodes[l.source]?).entity, target := (← g.nodes[l.target]?).entity
    kind := l.kind, label := l.label }

/-- All relations. -/
def relations (g : Graph) : List Relation := g.links.filterMap g.relation?

/-- The relations of a kind. -/
def relationsOfKind (g : Graph) (k : RelationKind) : List Relation :=
  g.relations.filter (·.kind = k)

/-- The links that start at a place, the newest one first: each that is added comes in front of
those before it. -/
def outgoing (g : Graph) (i : Nat) : List Link :=
  g.links.foldl (fun out l => if l.source = i then l :: out else out) []

/-- The relations that start at an entity, the oldest one first. -/
def relationsFrom (g : Graph) (e : Entity) : List Relation :=
  match g.index? e with
  | none => []
  | some i =>
    ((g.outgoing i).filterMap fun l =>
      (g.nodes[l.target]?).map fun n => ⟨e, n.entity, l.kind, l.label⟩).reverse

/-- How many relations there are. -/
def relationCount (g : Graph) : Nat := g.links.length

end Graph

end Atlas
