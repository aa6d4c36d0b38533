import Atlas.Diagram.PlantUml
import Atlas.Identifiers
import Atlas.Sql.Database

/-!
# Database reports

The entity-relationship diagram of a database and its Markdown documentation.
-/

namespace Atlas.Sql

/-! ## Nodes -/

/-- The line of a column, after a marker. -/
def Column.line (marker : String) (c : Column) : String :=
  marker ++ c.name ++ " : " ++ c.description ++
    (c.comment.map fun t => " <<" ++ Text.escape t ++ ">>").getD ""

/-- The line of an index. -/
def Index.line (i : Index) : String :=
  (if i.unique then "* " else "+ ") ++ i.name ++ "(" ++ String.intercalate ", " i.columns ++ ")" ++
    (i.predicate.map (" WHERE " ++ ·)).getD ""

/-- The section of the indexes that do not belong to the primary key. -/
def indexSection (indexes : List Index) : Section :=
  { title := some "Indexes", divider := true
    lines := (indexes.filter (·.name ≠ "PRIMARY")).map (·.line) }

/-- The node of a table. -/
def Table.node (t : Table) (id : String) : Node :=
  let n : Node := { shape := .entity, id, label := t.name }
  let n := n.addSection { lines := t.keyColumns.map (·.line "* ") }
  let n := n.addSection {
    divider := !t.keyColumns.isEmpty
    lines := t.otherColumns.map fun c => c.line (if c.nullable then "o " else "+ ") }
  let n := n.addSection (indexSection t.indexes)
  let n := n.addSection {
    title := some "Inherits", divider := true, lines := t.inherits.map ("+ " ++ ·) }
  n.addNote { lines := (t.comment.map Text.lines).getD [], detached := true }

/-- The lines of a view's definition, with a title. -/
def View.query (v : View) : List String :=
  if Text.isBlank v.definition then [] else "Query:" :: Text.lines (Text.trim v.definition)

/-- The node of a view. -/
def View.node (stereotype : String) (v : View) (id : String) : Node :=
  let n : Node := { shape := .classBox, id, label := v.name, stereotype := some stereotype }
  let n := n.addSection { lines := v.columns.map (·.line "") }
  let n := n.addSection (indexSection v.indexes)
  n.addNote { lines := v.query, detached := true }

/-! ## Diagram -/

/-- The identifier of a relation of a schema. -/
def relationId (ids : Identifiers) (schema name : String) : String × Identifiers :=
  ids.idFor (schema ++ "\x00" ++ name) (schema ++ "." ++ name)

/-- Draws one thing after another, each with the identifiers that those before it left. -/
def drawEach {α β : Type} (draw : Identifiers → α → β × Identifiers) (ids : Identifiers) :
    List α → List β × Identifiers
  | [] => ([], ids)
  | a :: as =>
    let (b, ids) := draw ids a
    let (bs, ids) := drawEach draw ids as
    (b :: bs, ids)

/-- The node of a table, with its identifier. -/
def drawTable (ids : Identifiers) (t : Table) : Node × Identifiers :=
  let (id, ids) := relationId ids t.schema t.name
  (t.node id, ids)

/-- The node of a view of a schema, with its identifier. -/
def drawView (schema stereotype : String) (ids : Identifiers) (v : View) : Node × Identifiers :=
  let (id, ids) := relationId ids schema v.name
  (v.node stereotype id, ids)

/-- The container of a schema. -/
def drawSchema (ids : Identifiers) (s : Schema) : Container × Identifiers :=
  let (tables, ids) := drawEach drawTable ids s.tables
  let (views, ids) := drawEach (drawView s.name "view") ids s.views
  let (materialized, ids) := drawEach (drawView s.name "materialized") ids s.materializedViews
  (⟨s.name, tables ++ views ++ materialized, []⟩, ids)

/-- The edge of a foreign key of the node `source`. -/
def drawKey (source : String) (ids : Identifiers) (k : ForeignKey) : Edge × Identifiers :=
  let (target, ids) := relationId ids k.schema k.table
  ({ source, arrow := "--", target, sourceCount := some "*", targetCount := some "1"
     label := some ("ON DELETE " ++ k.onDelete.words ++ ", ON UPDATE " ++ k.onUpdate.words) }, ids)

/-- The edge to a parent of the node `source`, which stands for a table of the schema. -/
def drawParent (schema source : String) (ids : Identifiers) (parent : String) :
    Edge × Identifiers :=
  let (s, t) := (Text.cut? "." parent).getD (schema, parent)
  let (target, ids) := relationId ids s t
  ({ source, arrow := "--|>", target, label := some "inherits" }, ids)

/-- The edges of a table. -/
def drawEdges (ids : Identifiers) (t : Table) : List Edge × Identifiers :=
  let (source, ids) := relationId ids t.schema t.name
  let (keys, ids) := drawEach (drawKey source) ids t.foreignKeys
  let (parents, ids) := drawEach (drawParent t.schema source) ids t.inherits
  (keys ++ parents, ids)

/-- The directives of the diagram. -/
def preamble : List String :=
  ["!theme plain", "skinparam linetype polyline", "skinparam ranksep 80", "skinparam nodesep 80",
    "skinparam roundcorner 5", "skinparam shadowing false", "skinparam handwritten false",
    "skinparam class \x7b", "  BackgroundColor White", "  ArrowColor Gray", "  BorderColor Gray",
    "\x7d", "set namespaceSeparator none"]

/-- The diagram of a database. -/
def Database.diagram (db : Database) : Diagram :=
  let (containers, ids) := drawEach drawSchema .empty db.schemas
  let (edges, _) := drawEach drawEdges ids db.tables
  let d : Diagram := { title := "Database Schema: " ++ db.name, preamble, edges := edges.flatten }
  containers.foldl Diagram.addContainer d

/-- The text of the diagram. -/
def Database.plantUml (db : Database) : String := PlantUml.render db.diagram

/-! ## Documentation -/

/-- The row of a column. -/
def Column.row (c : Column) : String :=
  "| " ++ c.name ++ " | " ++ c.type ++ " | " ++ (if c.nullable then "yes" else "no") ++ " | " ++
    (if c.primaryKey then "PK" else "") ++ " | " ++ c.default.getD "" ++ " |"

/-- The line of a foreign key. -/
def ForeignKey.line (k : ForeignKey) : String :=
  "- `" ++ k.name ++ "` (" ++ String.intercalate ", " k.columns ++ ") → " ++ k.schema ++ "." ++
    k.table ++ " (" ++ String.intercalate ", " k.targetColumns ++ ") ON DELETE " ++
    k.onDelete.words ++ " ON UPDATE " ++ k.onUpdate.words

/-- The lines about a table. -/
def Table.documentation (t : Table) : List String :=
  ["### " ++ t.name, ""] ++ (t.comment.map fun c => [c, ""]).getD [] ++
    ["| Column | Type | Nullable | Key | Default |",
      "|--------|------|----------|-----|---------|"] ++ t.columns.map (·.row) ++ [""] ++
    if t.foreignKeys.isEmpty then []
    else ["Foreign keys:"] ++ t.foreignKeys.map (·.line) ++ [""]

/-- The lines about a view. -/
def View.documentation (v : View) : List String :=
  ["### " ++ v.name ++ " (view)", ""] ++
    if v.definition = "" then [] else ["```sql", Text.trim v.definition, "```", ""]

/-- How an argument is shown. -/
def Argument.label (a : Argument) : String :=
  Text.trim (a.mode.word ++ " " ++ a.name ++ " " ++ a.type)

/-- The line of a function. -/
def Function.line (f : Function) : String :=
  "- `" ++ f.name ++ "(" ++ String.intercalate ", " (f.arguments.map (·.label)) ++ ")` → " ++
    f.returnType ++ " [" ++ f.language ++ ", " ++ f.volatility.word ++ ", SECURITY " ++
    f.security.word ++ "]"

/-- The lines about a schema. -/
def Schema.documentation (s : Schema) : List String :=
  ["## Schema `" ++ s.name ++ "`", ""] ++ s.tables.flatMap (·.documentation) ++
    (s.views ++ s.materializedViews).flatMap (·.documentation) ++
    if s.functions.isEmpty then []
    else ["### Functions", ""] ++ s.functions.map (·.line) ++ [""]

/-- The Markdown documentation of a database. -/
def Database.markdown (db : Database) : String :=
  Text.unlines (["# Database: " ++ db.name, ""] ++ db.schemas.flatMap (·.documentation) ++
    ["## Diagram", "", "```plantuml"]) ++ db.plantUml ++ "```\n"

end Atlas.Sql
