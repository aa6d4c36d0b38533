import Atlas.Error
import Atlas.Sql.Database

/-!
# Reading MySQL catalogs

The queries to a catalog and the database that is made of their rows: a single schema named after
it. The rows of an index or a foreign key stand among those of others, so they are put together by
name (`groups`), and every row is in the group of its name (`key_of_mem_groups`).
-/

namespace Atlas.Sql.MySql

/-! ## Rows -/

structure ColumnRow where
  name : String
  type : String := ""
  isNullable : String := ""
  key : String := ""
  default : Option String := none
  extra : String := ""
  comment : Option String := none
  deriving DecidableEq, Repr

/-- A column of an index. -/
structure IndexRow where
  index : String
  column : String := ""
  nonUnique : Int := 0
  type : String := ""
  deriving DecidableEq, Repr

/-- A column of a foreign key. -/
structure KeyRow where
  constraint : String
  column : String := ""
  schema : Option String := none
  table : String := ""
  targetColumn : String := ""
  deriving DecidableEq, Repr

/-- The rules of a foreign key. -/
structure RuleRow where
  constraint : String
  onDelete : String := ""
  onUpdate : String := ""
  deriving DecidableEq, Repr

/-- The queries to a catalog, about a database or about a table of it. -/
structure Catalog where
  /-- The tables with their comments. -/
  tables (db : String) : Result (List (String × Option String))
  columns (db table : String) : Result (List ColumnRow)
  indexColumns (db table : String) : Result (List IndexRow)
  keyColumns (db table : String) : Result (List KeyRow)
  rules (db table : String) : Result (List RuleRow)
  /-- The views with their definitions. -/
  views (db : String) : Result (List (String × Option String))

/-! ## Groups -/

/-- The rows of one name, in their order. -/
structure Group (α : Type) where
  name : String
  first : α
  rest : List α

/-- The rows of a group. -/
def Group.rows {α : Type} (g : Group α) : List α := g.first :: g.rest

/-- The groups with one more row. -/
def addToGroups {α : Type} (key : α → String) : List (Group α) → α → List (Group α)
  | [], a => [⟨key a, a, []⟩]
  | g :: gs, a =>
    if g.name = key a then { g with rest := g.rest ++ [a] } :: gs else g :: addToGroups key gs a

/-- The rows by name, the names in the order in which they first stand. -/
def groups {α : Type} (key : α → String) (rows : List α) : List (Group α) :=
  rows.foldl (addToGroups key) []

theorem key_of_mem_addToGroups {α : Type} {key : α → String} {gs : List (Group α)} {a : α}
    (hs : ∀ g ∈ gs, ∀ b ∈ g.rows, key b = g.name) :
    ∀ g ∈ addToGroups key gs a, ∀ b ∈ g.rows, key b = g.name := by
  induction gs with
  | nil => simp [addToGroups, Group.rows]
  | cons h t ih =>
    have hh := hs h (List.mem_cons_self ..)
    unfold addToGroups
    split
    · intro g hg
      rcases List.mem_cons.1 hg with rfl | hg
      · rename_i hk
        intro b hb
        have hb : b ∈ h.rows ∨ b = a := by
          simpa [Group.rows, or_assoc] using hb
        rcases hb with hb | rfl
        · exact hh b hb
        · exact hk.symm
      · exact hs g (List.mem_cons_of_mem _ hg)
    · intro g hg
      rcases List.mem_cons.1 hg with rfl | hg
      · exact hh
      · exact ih (fun g hg => hs g (List.mem_cons_of_mem _ hg)) g hg

theorem key_of_mem_groups {α : Type} {key : α → String} {rows : List α} {g : Group α}
    (hg : g ∈ groups key rows) {a : α} (ha : a ∈ g.rows) : key a = g.name := by
  have h (rows : List α) (gs : List (Group α)) (hs : ∀ g ∈ gs, ∀ b ∈ g.rows, key b = g.name) :
      ∀ g ∈ rows.foldl (addToGroups key) gs, ∀ b ∈ g.rows, key b = g.name := by
    induction rows generalizing gs with
    | nil => exact hs
    | cons r rs ih => exact ih _ (key_of_mem_addToGroups hs)
  exact h rows [] (by simp) g hg a ha

/-! ## From rows -/

/-- The column of a row. -/
def ColumnRow.asColumn (r : ColumnRow) : Column :=
  { name := r.name, type := r.type, nullable := isYes r.isNullable, primaryKey := r.key == "PRI"
    default := r.default, extra := r.extra, comment := nonBlank r.comment }

/-- The index of a group of rows. -/
def indexOf (g : Group IndexRow) : Index :=
  { name := g.name, columns := g.rows.map (·.column), type := g.first.type
    unique := g.first.nonUnique == 0 }

/-- The foreign key of a group of rows; of several rules for it the last one holds. -/
def foreignKeyOf (db : String) (rules : List RuleRow) (g : Group KeyRow) : ForeignKey :=
  let rule := rules.reverse.find? (·.constraint = g.name)
  { name := g.name
    columns := g.rows.map (·.column)
    schema := g.first.schema.getD db
    table := g.first.table
    targetColumns := g.rows.map (·.targetColumn)
    onDelete := (rule.map fun r => .ofWords r.onDelete).getD .noAction
    onUpdate := (rule.map fun r => .ofWords r.onUpdate).getD .noAction }

/-! ## Reading -/

/-- The columns of a table or view. -/
def readColumns (c : Catalog) (db table : String) : Result (List Column) := do
  return (← c.columns db table).map (·.asColumn)

/-- A table. -/
def readTable (c : Catalog) (db name : String) (comment : Option String) : Result Table := do
  let columns ← readColumns c db name
  let indexRows ← c.indexColumns db name
  let rules ← c.rules db name
  let keyRows ← c.keyColumns db name
  return { schema := db, name, columns, indexes := (groups IndexRow.index indexRows).map indexOf
           foreignKeys := (groups KeyRow.constraint keyRows).map (foreignKeyOf db rules)
           comment := nonBlank comment }

/-- A view; it has no columns if they cannot be read. -/
def readView (c : Catalog) (db name : String) (definition : Option String) : View :=
  { name, columns := ((readColumns c db name).toOption).getD []
    definition := Text.trim (definition.getD "") }

/-- The database of a catalog. Tables that cannot be read are left out. -/
def readDatabase (c : Catalog) (db : String) : Result Database := do
  let tables ← c.tables db
  let views ← c.views db
  return {
    name := db
    schemas := [{
      name := db
      tables := tables.filterMap fun (name, comment) => (readTable c db name comment).toOption
      views := views.map fun (name, definition) => readView c db name definition }] }

end Atlas.Sql.MySql
