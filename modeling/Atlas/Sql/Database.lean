import Atlas.Number.Binary64
import Atlas.Text

/-!
# Databases

What is documented of a database: its schemas with their tables, views and functions, whatever
server it was read from.
-/

namespace Atlas.Sql

/-! ## Words of a catalog -/

/-- What happens to the referencing rows when the referenced row changes. -/
inductive ReferentialAction where
  | noAction
  | restrict
  | cascade
  | setNull
  | setDefault
  deriving DecidableEq, Repr

namespace ReferentialAction

/-- All actions. -/
def all : List ReferentialAction := [.noAction, .restrict, .cascade, .setNull, .setDefault]

/-- The words for an action. -/
def words : ReferentialAction → String
  | .noAction => "NO ACTION"
  | .restrict => "RESTRICT"
  | .cascade => "CASCADE"
  | .setNull => "SET NULL"
  | .setDefault => "SET DEFAULT"

/-- The action of a catalog code; a code that is not known means that nothing is done. -/
def ofCode : String → ReferentialAction
  | "r" => .restrict
  | "c" => .cascade
  | "n" => .setNull
  | "d" => .setDefault
  | _ => .noAction

/-- The action that words stand for, in any case; others mean that nothing is done. -/
def ofWords (s : String) : ReferentialAction :=
  let upper := Text.toUpper (Text.trim s)
  (all.find? fun a => a.words == upper).getD .noAction

end ReferentialAction

/-- Whether a function may change the database or its result. -/
inductive Volatility where
  | immutable
  | stable
  | volatile
  deriving DecidableEq, Repr

namespace Volatility

/-- The word for a volatility. -/
def word : Volatility → String
  | .immutable => "IMMUTABLE"
  | .stable => "STABLE"
  | .volatile => "VOLATILE"

/-- The volatility of a catalog code. -/
def ofCode : String → Volatility
  | "i" => .immutable
  | "s" => .stable
  | _ => .volatile

end Volatility

/-- With whose rights a function runs. -/
inductive Security where
  | definer
  | invoker
  deriving DecidableEq, Repr

/-- The word for the rights. -/
def Security.word : Security → String
  | .definer => "DEFINER"
  | .invoker => "INVOKER"

/-- How an argument of a function is passed. -/
inductive ArgumentMode where
  | input
  | output
  | both
  | variadic
  | table
  deriving DecidableEq, Repr

namespace ArgumentMode

/-- The word for a mode. -/
def word : ArgumentMode → String
  | .input => "IN"
  | .output => "OUT"
  | .both => "INOUT"
  | .variadic => "VARIADIC"
  | .table => "TABLE"

/-- The mode of a catalog code. -/
def ofCode : String → ArgumentMode
  | "o" => .output
  | "b" => .both
  | "v" => .variadic
  | "t" => .table
  | _ => .input

end ArgumentMode

/-! ## Columns and tables -/

/-- What the planner of a server knows of a column. -/
structure Statistics where
  /-- The share of rows in which the column is null. -/
  nullShare : Binary64
  averageWidth : Int
  /-- The number of distinct values or, negated, their share of the rows. -/
  distinct : Binary64
  deriving DecidableEq, Repr

structure Column where
  name : String
  type : String
  nullable : Bool := false
  primaryKey : Bool := false
  default : Option String := none
  /-- What else the server says of the column. -/
  extra : String := ""
  comment : Option String := none
  statistics : Option Statistics := none
  deriving DecidableEq, Repr

/-- The declared type of a column, followed by its default and what else is said of it. -/
def Column.description (c : Column) : String :=
  String.intercalate " " <|
    [c.type] ++ ((c.default.filter (· ≠ "")).map ("DEFAULT " ++ ·)).toList ++
      [c.extra].filter (· ≠ "")

structure Index where
  name : String
  /-- The columns in the order of the index. -/
  columns : List String := []
  type : String := ""
  unique : Bool := false
  /-- Which rows are in the index, where not all are. -/
  predicate : Option String := none
  deriving DecidableEq, Repr

structure ForeignKey where
  name : String
  columns : List String := []
  schema : String
  table : String
  targetColumns : List String := []
  onDelete : ReferentialAction := .noAction
  onUpdate : ReferentialAction := .noAction
  deferrable : Bool := false
  deriving DecidableEq, Repr

structure Table where
  schema : String
  name : String
  columns : List Column := []
  indexes : List Index := []
  foreignKeys : List ForeignKey := []
  comment : Option String := none
  owner : Option String := none
  /-- The parents of the table as the catalog names them, with or without their schema. -/
  inherits : List String := []
  deriving DecidableEq, Repr

/-- The columns of the primary key. -/
def Table.keyColumns (t : Table) : List Column := t.columns.filter (·.primaryKey)

/-- The columns that do not belong to the primary key. -/
def Table.otherColumns (t : Table) : List Column := t.columns.filter (!·.primaryKey)

/-- A view, plain or materialized. -/
structure View where
  name : String
  columns : List Column := []
  definition : String := ""
  comment : Option String := none
  owner : Option String := none
  indexes : List Index := []
  deriving DecidableEq, Repr

/-! ## Functions and schemas -/

structure Argument where
  name : String := ""
  type : String
  mode : ArgumentMode := .input
  default : Option String := none
  deriving DecidableEq, Repr

structure Function where
  name : String
  schema : String
  arguments : List Argument := []
  returnType : String := ""
  language : String := ""
  volatility : Volatility := .volatile
  security : Security := .invoker
  definition : String := ""
  comment : Option String := none
  deriving DecidableEq, Repr

structure Schema where
  name : String
  tables : List Table := []
  views : List View := []
  materializedViews : List View := []
  functions : List Function := []
  deriving DecidableEq, Repr

structure Database where
  name : String
  schemas : List Schema := []
  deriving DecidableEq, Repr

/-- The tables of all schemas. -/
def Database.tables (db : Database) : List Table := db.schemas.flatMap (·.tables)

/-! ## Reading catalog rows -/

/-- The items of a list with commas, trimmed; blank ones are left out. -/
def listItems (s : String) : List String := ((Text.splitOn ',' s).map Text.trim).filter (· ≠ "")

/-- A text that is not blank. -/
def nonBlank (s : Option String) : Option String := s.filter fun t => !Text.isBlank t

/-- Whether a column may be null, in the word of a catalog. -/
def isYes (s : String) : Bool := Text.equalIgnoringCase s "YES"

theorem mem_listItems_ne {s t : String} (h : t ∈ listItems s) : t ≠ "" := by
  simpa using (List.mem_filter.1 h).2

end Atlas.Sql
