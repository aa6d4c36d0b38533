import Atlas.Graph
import Atlas.Sql.Database

/-!
# Entities of a database

Schemas with the tables and views they contain, and the tables that a table references or inherits
from. A parent of a table may be named with its schema, and either may stand in quotes.
-/

namespace Atlas.Sql

/-- The entity of a schema. -/
def Schema.entity (s : Schema) : Entity := { kind := .schema, name := s.name }

/-- The entity of a table. -/
def tableEntity (schema name : String) : Entity := { kind := .table, name, scope := some schema }

/-- A name without the quotes around it. -/
def unquoted (s : String) : String := Text.trimWhile (· == '"') s

/-- The entity of a parent, as a table of the schema names it. -/
def parentEntity (schema parent : String) : Entity :=
  match Text.cut? "." parent with
  | some (s, t) => tableEntity (unquoted s) (unquoted t)
  | none => tableEntity schema (unquoted parent)

/-- The nodes of what a schema contains. -/
def Schema.entityNodes (s : Schema) : List EntityNode :=
  let views (kind : EntityKind) (vs : List View) : List EntityNode :=
    vs.map fun v =>
      EntityNode.withDoc { entity := { kind, name := v.name, scope := some s.name } } v.comment
  (s.tables.map fun t =>
      EntityNode.withDoc
        { entity := tableEntity s.name t.name
          attributes := [("columns", toString t.columns.length)] } t.comment) ++
    views .view s.views ++ views .materializedView s.materializedViews

/-- The graph with something that a schema contains, unless it is there already. -/
def addContained (schema : Entity) (g : Graph) (n : EntityNode) : Graph :=
  match g.add n with
  | .ok (_, g) => g.relate ⟨schema, n.entity, .contains, none⟩
  | .error _ => g

/-- The graph with a schema and what it contains. -/
def addSchema (g : Graph) (s : Schema) : Graph :=
  s.entityNodes.foldl (addContained s.entity) (g.addNew { entity := s.entity })

/-- The tables that a table of the schema references and inherits from. -/
def Table.relations (schema : String) (t : Table) : List Relation :=
  let source := tableEntity schema t.name
  (t.foreignKeys.map fun k =>
      ⟨source, tableEntity k.schema k.table, .references, some k.onDelete.words⟩) ++
    t.inherits.map fun p => ⟨source, parentEntity schema p, .inherits, none⟩

/-- The references and inheritances of a database. -/
def Database.relations (db : Database) : List Relation :=
  db.schemas.flatMap fun s => s.tables.flatMap (·.relations s.name)

/-- The graph of a database. -/
def Database.graph (db : Database) : Graph :=
  db.relations.foldl Graph.relate (db.schemas.foldl addSchema Graph.empty)

end Atlas.Sql
