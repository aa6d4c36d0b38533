import Atlas.Laravel.Project
import Atlas.Data.Fields

/-!
# Laravel records

A project as plain data, and back.
-/

namespace Atlas.Laravel

/-- A relationship as plain data. -/
def Relationship.toData (r : Relationship) : Data :=
  .record ([("type", .text r.type.method), ("method", .text r.method),
    ("related_model", .text r.relatedModel)] ++
    Data.member? "foreign_key" (r.foreignKey.map .text) ++
    Data.member? "local_key" (r.localKey.map .text) ++
    Data.member? "pivot_table" (r.pivotTable.map .text))

/-- A model as plain data. -/
def Model.toData (m : Model) : Data :=
  .record [("name", .text m.name), ("path", .text m.path), ("table", .optionalText m.table),
    ("fillable", .texts m.fillable), ("hidden", .texts m.hidden),
    ("casts", .list (m.casts.map fun c =>
      .record [("field", .text c.field), ("cast_type", .text c.castType)])),
    ("relationships", .list (m.relationships.map (·.toData)))]

/-- A controller as plain data. -/
def Controller.toData (c : Controller) : Data :=
  .record [("name", .text c.name), ("path", .text c.path),
    ("methods", .list (c.methods.map fun m =>
      .record [("name", .text m.name), ("parameters", .texts m.parameters),
        ("return_type", .optionalText m.returnType)])),
    ("middleware", .texts c.middleware), ("models", .texts c.models)]

/-- A route as plain data. -/
def Route.toData (r : Route) : Data :=
  .record [("method", .text r.method), ("uri", .text r.uri),
    ("controller", .optionalText r.controller), ("action", .optionalText r.action),
    ("name", .optionalText r.name), ("middleware", .texts r.middleware),
    ("source", .text r.source)]

/-- A reference as plain data. -/
def ForeignReference.toData (r : ForeignReference) : Data :=
  .record [("table", .text r.table), ("column", .text r.column),
    ("on_delete", .optionalText r.onDelete), ("on_update", .optionalText r.onUpdate)]

/-- A column as plain data. -/
def Column.toData (c : Column) : Data :=
  .record ([("name", .text c.name), ("column_type", .text c.columnType),
    ("nullable", .bool c.nullable), ("unique", .bool c.unique), ("primary", .bool c.primary),
    ("default", .optionalText c.default)] ++
    Data.member? "references" (c.references.map (·.toData)) ++
    Data.listMember? "modifiers" (c.modifiers.map .text))

/-- A migration as plain data. -/
def Migration.toData (m : Migration) : Data :=
  .record [("name", .text m.name), ("timestamp", .text m.timestamp), ("table", .text m.table),
    ("columns", .list (m.columns.map (·.toData))),
    ("indexes", .list (m.indexes.map fun i =>
      .record [("kind", .text i.kind), ("columns", .texts i.columns)])),
    ("path", .text m.path)]

/-- A service provider as plain data. -/
def Provider.toData (p : Provider) : Data :=
  .record [("name", .text p.name), ("path", .text p.path), ("parent", .optionalText p.parent),
    ("deferred", .bool p.deferred)]

/-- A project as plain data. -/
def Project.toData (p : Project) : Data :=
  .record [("name", .text p.name), ("models", .list (p.models.map (·.toData))),
    ("controllers", .list (p.controllers.map (·.toData))),
    ("routes", .list (p.routes.map (·.toData))),
    ("migrations", .list (p.migrations.map (·.toData))),
    ("middleware", .list (p.middleware.map fun m =>
      .record [("name", .text m.name), ("path", .text m.path)])),
    ("providers", .list (p.providers.map (·.toData)))]

/-! ## Reading -/

/-- The cast of a record. -/
def Cast.ofData (d : Data) : Cast := ⟨d.textOf "field", d.textOf "cast_type"⟩

/-- The relationship of a record. -/
def Relationship.ofData (d : Data) : Relationship :=
  { type := (RelationshipType.ofMethod? (d.textOf "type")).getD .hasOne
    method := d.textOf "method", relatedModel := d.textOf "related_model"
    foreignKey := d.textOf? "foreign_key", localKey := d.textOf? "local_key"
    pivotTable := d.textOf? "pivot_table" }

/-- The model of a record. -/
def Model.ofData (d : Data) : Model :=
  { name := d.textOf "name", path := d.textOf "path", table := d.textOf? "table"
    fillable := d.textsOf "fillable", hidden := d.textsOf "hidden"
    casts := Data.listOf Cast.ofData d "casts"
    relationships := Data.listOf Relationship.ofData d "relationships" }

/-- The controller method of a record. -/
def ControllerMethod.ofData (d : Data) : ControllerMethod :=
  ⟨d.textOf "name", d.textsOf "parameters", d.textOf? "return_type"⟩

/-- The controller of a record. -/
def Controller.ofData (d : Data) : Controller :=
  { name := d.textOf "name", path := d.textOf "path"
    methods := Data.listOf ControllerMethod.ofData d "methods"
    middleware := d.textsOf "middleware", models := d.textsOf "models" }

/-- The route of a record. -/
def Route.ofData (d : Data) : Route :=
  { method := d.textOf "method", uri := d.textOf "uri", controller := d.textOf? "controller"
    action := d.textOf? "action", name := d.textOf? "name", middleware := d.textsOf "middleware"
    source := d.textOf "source" }

/-- The reference of a record. -/
def ForeignReference.ofData (d : Data) : ForeignReference :=
  ⟨d.textOf "table", d.textOf "column", d.textOf? "on_delete", d.textOf? "on_update"⟩

/-- The column of a record. -/
def Column.ofData (d : Data) : Column :=
  { name := d.textOf "name", columnType := d.textOf "column_type", nullable := d.flagOf "nullable"
    unique := d.flagOf "unique", primary := d.flagOf "primary", default := d.textOf? "default"
    references := Data.optionOf ForeignReference.ofData d "references"
    modifiers := d.textsOf "modifiers" }

/-- The migration of a record. -/
def Migration.ofData (d : Data) : Migration :=
  { name := d.textOf "name", timestamp := d.textOf "timestamp", table := d.textOf "table"
    columns := Data.listOf Column.ofData d "columns"
    indexes := Data.listOf (fun i => ⟨i.textOf "kind", i.textsOf "columns"⟩) d "indexes"
    path := d.textOf "path" }

/-- The service provider of a record. -/
def Provider.ofData (d : Data) : Provider :=
  ⟨d.textOf "name", d.textOf "path", d.textOf? "parent", d.flagOf "deferred"⟩

/-- The project of a record. -/
def Project.ofData (d : Data) : Project :=
  { name := d.textOf "name", models := Data.listOf Model.ofData d "models"
    controllers := Data.listOf Controller.ofData d "controllers"
    routes := Data.listOf Route.ofData d "routes"
    migrations := Data.listOf Migration.ofData d "migrations"
    middleware := Data.listOf (fun m => ⟨m.textOf "name", m.textOf "path"⟩) d "middleware"
    providers := Data.listOf Provider.ofData d "providers" }

end Atlas.Laravel
