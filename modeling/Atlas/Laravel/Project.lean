import Atlas.Text

/-!
# Laravel projects

What is known of a project: models with their relationships, controllers, routes, migrations with
their columns, middleware and service providers.
-/

namespace Atlas.Laravel

/-- How one model refers to another. -/
inductive RelationshipType where
  | hasOne
  | hasMany
  | belongsTo
  | belongsToMany
  deriving DecidableEq, Repr

namespace RelationshipType

/-- The method that declares the relationship. -/
def method : RelationshipType → String
  | .hasOne => "hasOne"
  | .hasMany => "hasMany"
  | .belongsTo => "belongsTo"
  | .belongsToMany => "belongsToMany"

/-- The relationship that a method declares. -/
def ofMethod? (s : String) : Option RelationshipType :=
  [hasOne, hasMany, belongsTo, belongsToMany].find? (·.method == s)

end RelationshipType

/-- A cast of a model field. -/
structure Cast where
  field : String
  castType : String
  deriving DecidableEq, Repr

/-- A relationship that a model declares. -/
structure Relationship where
  type : RelationshipType
  method : String
  relatedModel : String
  foreignKey : Option String := none
  localKey : Option String := none
  pivotTable : Option String := none
  deriving DecidableEq, Repr

/-- A model. Without a table of its own it follows the naming convention. -/
structure Model where
  name : String := ""
  path : String := ""
  table : Option String := none
  fillable : List String := []
  hidden : List String := []
  casts : List Cast := []
  relationships : List Relationship := []
  deriving DecidableEq, Repr

/-- A public method of a controller. -/
structure ControllerMethod where
  name : String
  parameters : List String
  returnType : Option String
  deriving DecidableEq, Repr

/-- A controller, with the models it imports. -/
structure Controller where
  name : String := ""
  path : String := ""
  methods : List ControllerMethod := []
  middleware : List String := []
  models : List String := []
  deriving DecidableEq, Repr

/-- A route. Its source is the stem of the file that declares it. -/
structure Route where
  method : String
  uri : String
  controller : Option String := none
  action : Option String := none
  name : Option String := none
  middleware : List String := []
  source : String := ""
  deriving DecidableEq, Repr

/-- The verb and the address of a route. -/
def Route.label (r : Route) : String := r.method ++ " " ++ r.uri

/-- A column that a column refers to. -/
structure ForeignReference where
  table : String := ""
  column : String := ""
  onDelete : Option String := none
  onUpdate : Option String := none
  deriving DecidableEq, Repr

/-- A column that a migration declares, with the modifiers of its declaration as written. -/
structure Column where
  name : String
  columnType : String
  nullable : Bool := false
  unique : Bool := false
  primary : Bool := false
  default : Option String := none
  references : Option ForeignReference := none
  modifiers : List String := []
  deriving DecidableEq, Repr

/-- An index that a migration declares: `index`, `unique` or `primary`. -/
structure MigrationIndex where
  kind : String
  columns : List String
  deriving DecidableEq, Repr

/-- A migration. -/
structure Migration where
  name : String := ""
  timestamp : String := ""
  table : String := ""
  columns : List Column := []
  indexes : List MigrationIndex := []
  path : String := ""
  deriving DecidableEq, Repr

/-- A middleware class. -/
structure Middleware where
  name : String
  path : String
  deriving DecidableEq, Repr

/-- A service provider. -/
structure Provider where
  name : String := ""
  path : String := ""
  parent : Option String := none
  deferred : Bool := false
  deriving DecidableEq, Repr

/-- A project. -/
structure Project where
  name : String := ""
  models : List Model := []
  controllers : List Controller := []
  routes : List Route := []
  migrations : List Migration := []
  middleware : List Middleware := []
  providers : List Provider := []
  deriving DecidableEq, Repr

/-- The models that a controller works with: those it imports, and the one its name implies. -/
def controlledModels (c : Controller) (models : List Model) : List String :=
  let implied := Text.dropSuffix? "Controller" c.name
  (models.map (·.name)).filter fun name => some name = implied ∨ name ∈ c.models

end Atlas.Laravel
