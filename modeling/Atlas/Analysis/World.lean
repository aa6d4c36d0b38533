import Atlas.Files.System
import Atlas.Settings
import Atlas.Sql.MySql
import Atlas.Sql.MySqlAddress
import Atlas.Sql.Postgres
import Atlas.Sql.PostgresAddress

/-!
# The world of an analysis

What an analysis reads: files, and the catalogs of database servers. A catalog is read through a
connection of the settings or through an address.
-/

namespace Atlas

/-- The database servers that can be asked for a catalog. -/
structure Servers where
  postgres : Connection → Result Sql.Postgres.Catalog
  mysql : Connection → Result Sql.MySql.Catalog
  postgresAt (address : String) : Result Sql.Postgres.Catalog
  mysqlAt (address : String) : Result Sql.MySql.Catalog

/-- No server answers. -/
def Servers.unreachable : Servers :=
  let fault := Error.database "no server can be reached"
  { postgres := fun _ => .error fault, mysql := fun _ => .error fault
    postgresAt := fun _ => .error fault, mysqlAt := fun _ => .error fault }

/-- What an analysis reads. -/
structure World where
  files : FileSystem
  servers : Servers

namespace Servers

/-- The database of a connection. -/
def database (s : Servers) (c : Connection) : Result Sql.Database := do
  match DatabaseType.ofCode? c.type with
  | some .postgres => Sql.Postgres.readDatabase (← s.postgres c) c.database c.schema
  | some .mysql => Sql.MySql.readDatabase (← s.mysql c) c.database
  | none => throw (.config ("invalid database type \"" ++ c.type ++ "\""))

/-- The database at an address of a PostgreSQL server. -/
def postgresDatabase (s : Servers) (address : String) : Result Sql.Database := do
  let name ← Sql.Postgres.databaseName address
  Sql.Postgres.readDatabase (← s.postgresAt address) name none

/-- The database at an address of a MySQL server, which may name another one than is asked for. -/
def mysqlDatabase (s : Servers) (address : String) (asked : Option String) :
    Result Sql.Database := do
  let name ← Sql.MySql.databaseName address asked
  Sql.MySql.readDatabase (← s.mysqlAt address) name

end Servers

end Atlas
