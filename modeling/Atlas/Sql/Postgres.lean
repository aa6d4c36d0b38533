import Atlas.Error
import Atlas.Sql.Arguments

/-!
# Reading PostgreSQL catalogs

The queries to a catalog and the database that is made of their rows. Each query may fail. Without
the names of the schemas there is no database; a schema of which a query fails is left out
(`schemas_readDatabase`), and so is a table within its schema.
-/

namespace Atlas.Sql.Postgres

/-! ## Rows -/

structure TableRow where
  name : String
  owner : Option String := none
  comment : Option String := none
  /-- The parents of the table, with commas between them. -/
  inherits : Option String := none
  deriving DecidableEq, Repr

structure ColumnRow where
  name : String
  type : String := ""
  isNullable : String := ""
  columnDefault : Option String := none
  /-- The default as an expression. -/
  defaultExpression : Option String := none
  comment : Option String := none
  isPrimary : Bool := false
  nullShare : Option Binary64 := none
  averageWidth : Option Int := none
  distinct : Option Binary64 := none
  deriving DecidableEq, Repr

structure IndexRow where
  name : String
  type : String := ""
  /-- The columns, with commas between them. -/
  columns : Option String := none
  unique : Bool := false
  predicate : Option String := none
  deriving DecidableEq, Repr

structure ForeignKeyRow where
  name : String
  columns : Option String := none
  schema : String := ""
  table : String := ""
  targetColumns : Option String := none
  updateCode : String := ""
  deleteCode : String := ""
  deferrable : Bool := false
  deriving DecidableEq, Repr

structure ViewRow where
  name : String
  owner : Option String := none
  definition : Option String := none
  comment : Option String := none
  deriving DecidableEq, Repr

structure FunctionRow where
  name : String
  arguments : String := ""
  returnType : String := ""
  language : String := ""
  source : String := ""
  comment : Option String := none
  volatility : String := ""
  securityDefiner : Bool := false
  /-- The mode codes of all arguments, with commas between them, or empty. -/
  modes : String := ""
  /-- The names of all arguments, with commas between them, or empty. -/
  names : String := ""
  deriving DecidableEq, Repr

/-- The queries to a catalog, about a schema or about a relation of a schema. -/
structure Catalog where
  schemas : Result (List String)
  tables (schema : String) : Result (List TableRow)
  columns (schema relation : String) : Result (List ColumnRow)
  indexes (schema relation : String) : Result (List IndexRow)
  foreignKeys (schema table : String) : Result (List ForeignKeyRow)
  views (schema : String) : Result (List ViewRow)
  materializedViews (schema : String) : Result (List ViewRow)
  functions (schema : String) : Result (List FunctionRow)

/-! ## From rows -/

/-- The statistics of a column of which anything is known. -/
def ColumnRow.statistics (r : ColumnRow) : Option Statistics :=
  if r.nullShare.isSome || r.averageWidth.isSome || r.distinct.isSome then
    some ⟨r.nullShare.getD ⟨0⟩, r.averageWidth.getD 0, r.distinct.getD ⟨0⟩⟩
  else none

/-- The column of a row. -/
def ColumnRow.column (r : ColumnRow) : Column :=
  { name := r.name, type := r.type, nullable := isYes r.isNullable, primaryKey := r.isPrimary
    default := r.columnDefault.or r.defaultExpression
    comment := nonBlank r.comment, statistics := r.statistics }

/-- The rows without those of a name that stands before. -/
def firstRows : List ColumnRow → List ColumnRow
  | [] => []
  | r :: rs => r :: (firstRows rs).filter (·.name ≠ r.name)

/-- The index of a row. -/
def IndexRow.index (r : IndexRow) : Index :=
  { name := r.name, columns := listItems (r.columns.getD ""), type := r.type, unique := r.unique
    predicate := nonBlank r.predicate }

/-- The foreign key of a row. -/
def ForeignKeyRow.foreignKey (r : ForeignKeyRow) : ForeignKey :=
  { name := r.name, columns := listItems (r.columns.getD ""), schema := r.schema, table := r.table
    targetColumns := listItems (r.targetColumns.getD "")
    onDelete := .ofCode r.deleteCode, onUpdate := .ofCode r.updateCode
    deferrable := r.deferrable }

/-- The view of a row. -/
def ViewRow.view (r : ViewRow) (columns : List Column) (indexes : List Index) : View :=
  { name := r.name, columns, definition := Text.trim (r.definition.getD "")
    comment := nonBlank r.comment, owner := nonBlank r.owner, indexes }

/-- The function of a row. -/
def FunctionRow.function (schema : String) (r : FunctionRow) : Function :=
  { name := r.name, schema, arguments := Sql.arguments r.arguments r.modes r.names
    returnType := r.returnType, language := r.language, volatility := .ofCode r.volatility
    security := if r.securityDefiner then .definer else .invoker
    definition := r.source, comment := nonBlank r.comment }

/-- No two rows have one name. -/
theorem nodup_firstRows (rows : List ColumnRow) : ((firstRows rows).map (·.name)).Nodup := by
  induction rows with
  | nil => simp [firstRows]
  | cons r rs ih =>
    rw [firstRows, List.map_cons, List.nodup_cons]
    refine ⟨by simp, ih.sublist ?_⟩
    exact List.filter_sublist.map _

/-! ## Reading -/

/-- The columns of a relation, one for each name. -/
def readColumns (c : Catalog) (schema relation : String) : Result (List Column) := do
  return (firstRows (← c.columns schema relation)).map (·.column)

/-- The indexes of a relation. -/
def readIndexes (c : Catalog) (schema relation : String) : Result (List Index) := do
  return (← c.indexes schema relation).map (·.index)

/-- The table of a row. -/
def readTable (c : Catalog) (schema : String) (r : TableRow) : Result Table := do
  let columns ← readColumns c schema r.name
  let indexes ← readIndexes c schema r.name
  let foreignKeys ← c.foreignKeys schema r.name
  return { schema, name := r.name, columns, indexes, foreignKeys := foreignKeys.map (·.foreignKey)
           comment := nonBlank r.comment, owner := nonBlank r.owner
           inherits := listItems (r.inherits.getD "") }

/-- The view of a row. -/
def readView (c : Catalog) (schema : String) (r : ViewRow) : Result View := do
  return r.view (← readColumns c schema r.name) []

/-- The materialized view of a row. -/
def readMaterializedView (c : Catalog) (schema : String) (r : ViewRow) : Result View := do
  let columns ← readColumns c schema r.name
  return r.view columns (← readIndexes c schema r.name)

/-- A schema. Tables that cannot be read are left out; anything else has to be there. -/
def readSchema (c : Catalog) (name : String) : Result Schema := do
  let tables ← c.tables name
  let views ← (← c.views name).mapM (readView c name)
  let materializedViews ← (← c.materializedViews name).mapM (readMaterializedView c name)
  let functions ← c.functions name
  return { name, tables := tables.filterMap fun r => (readTable c name r).toOption
           views, materializedViews, functions := functions.map (·.function name) }

/-- The database of a catalog, or only the schema `only` of it. Schemas that cannot be read are left
out. -/
def readDatabase (c : Catalog) (name : String) (only : Option String) : Result Database := do
  let names ← c.schemas
  let names := names.filter fun n => only.all (· == n)
  return { name, schemas := names.filterMap fun n => (readSchema c n).toOption }

theorem schemas_readDatabase {c : Catalog} {name : String} {names : List String}
    (h : c.schemas = .ok names) :
    readDatabase c name none =
      .ok { name, schemas := names.filterMap fun n => (readSchema c n).toOption } := by
  have hall : (names.filter fun n => (none : Option String).all (· == n)) = names :=
    List.filter_eq_self.2 fun _ _ => rfl
  simp only [readDatabase, h, bind, Except.bind, pure, Except.pure, hall]

end Atlas.Sql.Postgres
