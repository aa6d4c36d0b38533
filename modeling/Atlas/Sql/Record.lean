import Atlas.Data.Fields
import Atlas.Sql.Database

/-!
# Database records

A database as plain data, and back.
-/

namespace Atlas.Sql

/-- The statistics of a column as plain data. -/
def Statistics.toData (s : Statistics) : Data :=
  .record [("null_frac", .number (.float s.nullShare)), ("avg_width", .number (.int s.averageWidth)),
    ("n_distinct", .number (.float s.distinct))]

/-- A column as plain data. -/
def Column.toData (c : Column) : Data :=
  .record ([("name", .text c.name), ("data_type", .text c.type), ("nullable", .bool c.nullable),
      ("primary_key", .bool c.primaryKey)] ++
    Data.member? "default" (c.default.map .text) ++
    Data.member? "extra" (if c.extra = "" then none else some (.text c.extra)) ++
    Data.member? "comment" (c.comment.map .text) ++
    Data.member? "statistics" (c.statistics.map (·.toData)))

/-- An index as plain data. -/
def Index.toData (i : Index) : Data :=
  .record ([("name", .text i.name), ("columns", .texts i.columns), ("index_type", .text i.type),
      ("unique", .bool i.unique)] ++
    Data.member? "predicate" (i.predicate.map .text))

/-- A foreign key as plain data. -/
def ForeignKey.toData (k : ForeignKey) : Data :=
  .record [("name", .text k.name), ("columns", .texts k.columns), ("ref_schema", .text k.schema),
    ("ref_table", .text k.table), ("ref_columns", .texts k.targetColumns),
    ("on_delete", .text k.onDelete.words), ("on_update", .text k.onUpdate.words),
    ("deferrable", .bool k.deferrable)]

/-- A table as plain data. -/
def Table.toData (t : Table) : Data :=
  .record ([("schema", .text t.schema), ("name", .text t.name),
      ("columns", .list (t.columns.map (·.toData))), ("indexes", .list (t.indexes.map (·.toData))),
      ("foreign_keys", .list (t.foreignKeys.map (·.toData)))] ++
    Data.member? "comment" (t.comment.map .text) ++ Data.member? "owner" (t.owner.map .text) ++
    Data.listMember? "inherits" (t.inherits.map .text))

/-- A view as plain data. -/
def View.toData (v : View) : Data :=
  .record ([("name", .text v.name), ("columns", .list (v.columns.map (·.toData))),
      ("definition", .text v.definition)] ++
    Data.member? "comment" (v.comment.map .text) ++ Data.member? "owner" (v.owner.map .text) ++
    Data.listMember? "indexes" (v.indexes.map (·.toData)))

/-- An argument as plain data. -/
def Argument.toData (a : Argument) : Data :=
  .record ([("name", .text a.name), ("data_type", .text a.type), ("mode", .text a.mode.word)] ++
    Data.member? "default" (a.default.map .text))

/-- A function as plain data. -/
def Function.toData (f : Function) : Data :=
  .record ([("name", .text f.name), ("schema", .text f.schema),
      ("arguments", .list (f.arguments.map (·.toData))), ("return_type", .text f.returnType),
      ("language", .text f.language), ("volatility", .text f.volatility.word),
      ("security", .text f.security.word), ("definition", .text f.definition)] ++
    Data.member? "comment" (f.comment.map .text))

/-- A schema as plain data. -/
def Schema.toData (s : Schema) : Data :=
  .record [("name", .text s.name), ("tables", .list (s.tables.map (·.toData))),
    ("views", .list (s.views.map (·.toData))),
    ("materialized_views", .list (s.materializedViews.map (·.toData))),
    ("functions", .list (s.functions.map (·.toData)))]

/-- A database as plain data. -/
def Database.toData (db : Database) : Data :=
  .record [("name", .text db.name), ("schemas", .list (db.schemas.map (·.toData)))]

/-! ## Reading -/

/-- The statistics of a record. -/
def Statistics.ofData (d : Data) : Statistics :=
  ⟨(d.get "null_frac").float?.getD ⟨0⟩, (d.get "avg_width").int?.getD 0,
    (d.get "n_distinct").float?.getD ⟨0⟩⟩

/-- The column of a record. -/
def Column.ofData (d : Data) : Column :=
  { name := d.textOf "name", type := d.textOf "data_type", nullable := d.flagOf "nullable"
    primaryKey := d.flagOf "primary_key", default := d.textOf? "default", extra := d.textOf "extra"
    comment := d.textOf? "comment"
    statistics := Data.optionOf Statistics.ofData d "statistics" }

/-- The index of a record. -/
def Index.ofData (d : Data) : Index :=
  { name := d.textOf "name", columns := d.textsOf "columns", type := d.textOf "index_type"
    unique := d.flagOf "unique", predicate := d.textOf? "predicate" }

/-- The action of a record. -/
def ReferentialAction.ofData (d : Data) : ReferentialAction :=
  (all.find? fun a => a.words == d.toText).getD .noAction

/-- The foreign key of a record. -/
def ForeignKey.ofData (d : Data) : ForeignKey :=
  { name := d.textOf "name", columns := d.textsOf "columns", schema := d.textOf "ref_schema"
    table := d.textOf "ref_table", targetColumns := d.textsOf "ref_columns"
    onDelete := .ofData (d.get "on_delete"), onUpdate := .ofData (d.get "on_update")
    deferrable := d.flagOf "deferrable" }

/-- The table of a record. -/
def Table.ofData (d : Data) : Table :=
  { schema := d.textOf "schema", name := d.textOf "name"
    columns := Data.listOf Column.ofData d "columns"
    indexes := Data.listOf Index.ofData d "indexes"
    foreignKeys := Data.listOf ForeignKey.ofData d "foreign_keys"
    comment := d.textOf? "comment", owner := d.textOf? "owner", inherits := d.textsOf "inherits" }

/-- The view of a record. -/
def View.ofData (d : Data) : View :=
  { name := d.textOf "name", columns := Data.listOf Column.ofData d "columns"
    definition := d.textOf "definition", comment := d.textOf? "comment"
    owner := d.textOf? "owner", indexes := Data.listOf Index.ofData d "indexes" }

/-- The mode of a record. -/
def ArgumentMode.ofData (d : Data) : ArgumentMode :=
  ([output, both, variadic, table].find? fun m => m.word == d.toText).getD .input

/-- The argument of a record. -/
def Argument.ofData (d : Data) : Argument :=
  { name := d.textOf "name", type := d.textOf "data_type", mode := .ofData (d.get "mode")
    default := d.textOf? "default" }

/-- The volatility of a record. -/
def Volatility.ofData (d : Data) : Volatility :=
  ([immutable, stable].find? fun v => v.word == d.toText).getD .volatile

/-- The function of a record. -/
def Function.ofData (d : Data) : Function :=
  { name := d.textOf "name", schema := d.textOf "schema"
    arguments := Data.listOf Argument.ofData d "arguments"
    returnType := d.textOf "return_type", language := d.textOf "language"
    volatility := .ofData (d.get "volatility")
    security := if d.textOf "security" = "DEFINER" then .definer else .invoker
    definition := d.textOf "definition", comment := d.textOf? "comment" }

/-- The schema of a record. -/
def Schema.ofData (d : Data) : Schema :=
  { name := d.textOf "name", tables := Data.listOf Table.ofData d "tables"
    views := Data.listOf View.ofData d "views"
    materializedViews := Data.listOf View.ofData d "materialized_views"
    functions := Data.listOf Function.ofData d "functions" }

/-- The database of a record. -/
def Database.ofData (d : Data) : Database :=
  ⟨d.textOf "name", Data.listOf Schema.ofData d "schemas"⟩

end Atlas.Sql
