import Atlas.Proofs.Result
import Atlas.Sql.Postgres
import Mathlib.Data.List.Forall2

/-!
# What a failing query costs a PostgreSQL database

A query about one relation fails, and all others answer as before (`Catalog.failing`). A table of
which a query fails is left out of its schema (`toOption_readTable_failing`), and so the rest of the
database is as it was. A view or materialized view takes its schema with it, since nothing but
tables is left out of a schema that is read (`toOption_readSchema_failing`). The database is given
exactly for either case, and it lacks no more than the relation unless the query is one that a view
of a schema in it needs (`readDatabase_failing`).
-/

set_option linter.unusedSectionVars false

namespace Atlas.Sql.Postgres

/-! ## Queries that fail -/

/-- The queries about one relation. -/
inductive Query where
  | columns
  | indexes
  | foreignKeys
  deriving DecidableEq

/-- A query about one relation that fails. -/
structure Failure where
  query : Query
  schema : String
  relation : String
  error : Error

/-- Whether a query about a relation is the one that fails. -/
def Failure.Hits (f : Failure) (query : Query) (schema relation : String) : Prop :=
  f.query = query ∧ f.schema = schema ∧ f.relation = relation

instance (f : Failure) (query : Query) (schema relation : String) :
    Decidable (f.Hits query schema relation) :=
  inferInstanceAs (Decidable (_ ∧ _ ∧ _))

/-- The catalog of which one query fails. -/
def Catalog.failing (c : Catalog) (f : Failure) : Catalog :=
  { c with
    columns := fun s r => if f.Hits .columns s r then .error f.error else c.columns s r
    indexes := fun s r => if f.Hits .indexes s r then .error f.error else c.indexes s r
    foreignKeys := fun s r => if f.Hits .foreignKeys s r then .error f.error else c.foreignKeys s r }

/-- Whether a view of this name is among some rows. -/
def holdsView (rows : Result (List ViewRow)) (name : String) : Bool :=
  (rows.toOption.getD []).any (name = ·.name)

/-- Whether a view or materialized view needs the query that fails. -/
def Failure.reachesView (f : Failure) (c : Catalog) : Bool :=
  match f.query with
  | .columns =>
    holdsView (c.views f.schema) f.relation || holdsView (c.materializedViews f.schema) f.relation
  | .indexes => holdsView (c.materializedViews f.schema) f.relation
  | .foreignKeys => false

section Failing

variable (c : Catalog) (f : Failure)

@[simp] theorem schemas_failing : (c.failing f).schemas = c.schemas :=
  rfl

@[simp] theorem tables_failing : (c.failing f).tables = c.tables :=
  rfl

@[simp] theorem views_failing : (c.failing f).views = c.views :=
  rfl

@[simp] theorem materializedViews_failing :
    (c.failing f).materializedViews = c.materializedViews :=
  rfl

@[simp] theorem functions_failing : (c.failing f).functions = c.functions :=
  rfl

theorem holdsView_iff {rows : Result (List ViewRow)} {name : String} :
    holdsView rows name = true ↔ ∃ l, rows = .ok l ∧ ∃ r ∈ l, name = r.name := by
  cases rows <;> simp [holdsView, Except.toOption]

theorem reachesView_iff : f.reachesView c = true ↔
    (∃ rows, c.views f.schema = .ok rows ∧ ∃ r ∈ rows, f.Hits .columns f.schema r.name) ∨
      ∃ rows, c.materializedViews f.schema = .ok rows ∧
        ∃ r ∈ rows, f.Hits .columns f.schema r.name ∨ f.Hits .indexes f.schema r.name := by
  obtain ⟨query, schema, relation, error⟩ := f
  cases query <;> simp [Failure.reachesView, Failure.Hits, holdsView_iff]

end Failing

/-- What a failing query leaves of a schema: all of another schema, nothing if a view needs the
query, and otherwise all but the tables of its name. -/
def Failure.leaves (f : Failure) (c : Catalog) (s : Schema) : Option Schema :=
  if s.name ≠ f.schema then some s
  else if f.reachesView c then none
  else some { s with tables := s.tables.filter (·.name ≠ f.relation) }

/-! ## Relations -/

section Reading

variable (c : Catalog) (f : Failure) (schema : String)

theorem toOption_ite_error {α : Type} (p : Prop) [Decidable p] (e : Error) (x : Result α) :
    (if p then .error e else x).toOption = if p then none else x.toOption := by
  split <;> rfl

theorem toOption_readColumns_failing (relation : String) :
    (readColumns (c.failing f) schema relation).toOption =
      if f.Hits .columns schema relation then none else (readColumns c schema relation).toOption := by
  simp only [readColumns, Catalog.failing, toOption_bind, toOption_ite_error]
  split <;> rfl

theorem toOption_readIndexes_failing (relation : String) :
    (readIndexes (c.failing f) schema relation).toOption =
      if f.Hits .indexes schema relation then none else (readIndexes c schema relation).toOption := by
  simp only [readIndexes, Catalog.failing, toOption_bind, toOption_ite_error]
  split <;> rfl

/-- A table needs all three queries. -/
theorem toOption_readTable_failing (r : TableRow) :
    (readTable (c.failing f) schema r).toOption =
      if f.schema = schema ∧ f.relation = r.name then none
      else (readTable c schema r).toOption := by
  have hkeys : ((c.failing f).foreignKeys schema r.name).toOption =
      if f.Hits .foreignKeys schema r.name then none
      else (c.foreignKeys schema r.name).toOption := toOption_ite_error _ _ _
  simp only [readTable, toOption_bind, toOption_readColumns_failing, toOption_readIndexes_failing,
    hkeys, Failure.Hits]
  obtain ⟨query, failing, relation, error⟩ := f
  by_cases h : failing = schema ∧ relation = r.name
  · cases query <;> simp [h]
  · simp [h]

theorem toOption_readView_failing (r : ViewRow) :
    (readView (c.failing f) schema r).toOption =
      if f.Hits .columns schema r.name then none else (readView c schema r).toOption := by
  simp only [readView, toOption_bind, toOption_readColumns_failing]
  split <;> rfl

theorem toOption_readMaterializedView_failing (r : ViewRow) :
    (readMaterializedView (c.failing f) schema r).toOption =
      if f.Hits .columns schema r.name ∨ f.Hits .indexes schema r.name then none
      else (readMaterializedView c schema r).toOption := by
  simp only [readMaterializedView, toOption_bind, toOption_readColumns_failing,
    toOption_readIndexes_failing]
  by_cases hc : f.Hits .columns schema r.name
  · simp [hc]
  · by_cases hi : f.Hits .indexes schema r.name <;> simp [hc, hi]

end Reading

/-! ## Schemas -/

section Schema

variable {c : Catalog} {name : String}

theorem name_of_readTable {schema : String} {r : TableRow} {t : Table}
    (h : readTable c schema r = .ok t) : t.name = r.name := by
  obtain ⟨columns, -, h⟩ := bind_eq_ok_iff.1 h
  obtain ⟨indexes, -, h⟩ := bind_eq_ok_iff.1 h
  obtain ⟨keys, -, h⟩ := bind_eq_ok_iff.1 h
  cases h
  rfl

/-- A schema that is read has the tables that can be read, all views and all functions. -/
theorem toOption_readSchema (c : Catalog) (name : String) : (readSchema c name).toOption =
    (c.tables name).toOption.bind fun tables =>
      (c.views name).toOption.bind fun viewRows =>
        (viewRows.mapM fun r => (readView c name r).toOption).bind fun views =>
          (c.materializedViews name).toOption.bind fun materializedRows =>
            (materializedRows.mapM fun r => (readMaterializedView c name r).toOption).bind
              fun materializedViews =>
                (c.functions name).toOption.map fun functions =>
                  { name, tables := tables.filterMap fun r => (readTable c name r).toOption
                    views, materializedViews, functions := functions.map (·.function name) } := by
  simp only [readSchema, toOption_bind, toOption_mapM, toOption_pure, Option.map_eq_bind]
  rfl

theorem name_of_readSchema {s : Schema} (h : readSchema c name = .ok s) : s.name = name := by
  have hs := toOption_eq_some_iff.2 h
  rw [toOption_readSchema] at hs
  simp only [Option.bind_eq_some_iff, Option.map_eq_some_iff] at hs
  obtain ⟨_, -, _, -, _, -, _, -, _, -, _, -, rfl⟩ := hs
  rfl

variable (f : Failure)

/-- Leaving a table out is the same before and after the tables are read. -/
theorem filterMap_readTable_failing (rows : List TableRow) :
    (rows.filterMap fun r => (readTable (c.failing f) f.schema r).toOption) =
      (rows.filterMap fun r => (readTable c f.schema r).toOption).filter
        (·.name ≠ f.relation) := by
  rw [List.filter_filterMap]
  refine List.filterMap_congr fun r _ => ?_
  rw [toOption_readTable_failing]
  cases ht : readTable c f.schema r with
  | error e => simp [Except.toOption]
  | ok t =>
    have hname := name_of_readTable ht
    by_cases hr : f.relation = r.name
    · simp [Except.toOption, Option.filter_some, hname, hr]
    · simp [Except.toOption, Option.filter_some, hname, hr, Ne.symm hr]

/-- A view that cannot be read takes its schema with it. -/
theorem toOption_readSchema_of_reachesView (h : f.reachesView c = true) :
    (readSchema (c.failing f) f.schema).toOption = none := by
  cases hs : (readSchema (c.failing f) f.schema).toOption with
  | none => rfl
  | some s =>
    rw [toOption_readSchema] at hs
    simp only [Option.bind_eq_some_iff, toOption_readView_failing,
      toOption_readMaterializedView_failing, mapM_ite_none, views_failing,
      materializedViews_failing] at hs
    obtain ⟨_, -, viewRows, hviews, _, hread, materializedRows, hmaterialized, _, hread', -⟩ := hs
    rw [toOption_eq_some_iff] at hviews hmaterialized
    rcases (reachesView_iff c f).1 h with ⟨rows, hrows, hhit⟩ | ⟨rows, hrows, hhit⟩
    · rw [hviews] at hrows
      cases hrows
      rw [if_pos hhit] at hread
      cases hread
    · rw [hmaterialized] at hrows
      cases hrows
      rw [if_pos hhit] at hread'
      cases hread'

/-- Where no view needs the query, the schema loses the table that does. -/
theorem toOption_readSchema_of_not_reachesView (h : f.reachesView c = false) :
    (readSchema (c.failing f) f.schema).toOption =
      (readSchema c f.schema).toOption.map fun s =>
        { s with tables := s.tables.filter (·.name ≠ f.relation) } := by
  have hviews {rows : List ViewRow} (hrows : (c.views f.schema).toOption = some rows) :
      ¬∃ r ∈ rows, f.Hits .columns f.schema r.name := fun hhit => by
    have hreach := (reachesView_iff c f).2 (Or.inl ⟨rows, toOption_eq_some_iff.1 hrows, hhit⟩)
    exact Bool.false_ne_true (h.symm.trans hreach)
  have hmaterialized {rows : List ViewRow}
      (hrows : (c.materializedViews f.schema).toOption = some rows) :
      ¬∃ r ∈ rows, f.Hits .columns f.schema r.name ∨ f.Hits .indexes f.schema r.name := fun hhit => by
    have hreach := (reachesView_iff c f).2 (Or.inr ⟨rows, toOption_eq_some_iff.1 hrows, hhit⟩)
    exact Bool.false_ne_true (h.symm.trans hreach)
  rw [toOption_readSchema, toOption_readSchema]
  simp only [toOption_readView_failing, toOption_readMaterializedView_failing, mapM_ite_none,
    filterMap_readTable_failing, tables_failing, views_failing, materializedViews_failing,
    functions_failing, Option.map_bind, Function.comp_def, Option.map_map]
  refine Option.bind_congr fun tables _ => ?_
  refine Option.bind_congr fun viewRows hrows => ?_
  rw [if_neg (hviews hrows)]
  refine Option.bind_congr fun views _ => ?_
  refine Option.bind_congr fun materializedRows hrows => ?_
  rw [if_neg (hmaterialized hrows)]

/-- A query about a relation of another schema changes nothing. -/
theorem toOption_readSchema_of_ne (h : f.schema ≠ name) :
    (readSchema (c.failing f) name).toOption = (readSchema c name).toOption := by
  rw [toOption_readSchema, toOption_readSchema]
  simp [toOption_readTable_failing, toOption_readView_failing,
    toOption_readMaterializedView_failing, Failure.Hits, h]

/-- What is read of a schema is what the failing query leaves of it. -/
theorem toOption_readSchema_failing (c : Catalog) (f : Failure) (name : String) :
    (readSchema (c.failing f) name).toOption =
      (readSchema c name).toOption.bind (f.leaves c) := by
  by_cases hn : f.schema = name
  · subst hn
    cases hreach : f.reachesView c with
    | true =>
      rw [toOption_readSchema_of_reachesView f hreach]
      refine (Option.bind_eq_none_iff.2 fun s hs => ?_).symm
      have hname := name_of_readSchema (toOption_eq_some_iff.1 hs)
      simp [Failure.leaves, hname, hreach]
    | false =>
      rw [toOption_readSchema_of_not_reachesView f hreach, Option.map_eq_bind]
      refine Option.bind_congr fun s hs => ?_
      have hname := name_of_readSchema (toOption_eq_some_iff.1 hs)
      simp [Failure.leaves, hname, hreach]
  · rw [toOption_readSchema_of_ne f hn]
    cases hs : (readSchema c name).toOption with
    | none => rfl
    | some s =>
      have hname := name_of_readSchema (toOption_eq_some_iff.1 hs)
      simp [Failure.leaves, hname, Ne.symm hn]

end Schema

/-! ## Databases -/

/-- What a failing query leaves of a database. -/
def Failure.leavesOf (f : Failure) (c : Catalog) (db : Database) : Database :=
  { db with schemas := db.schemas.filterMap (f.leaves c) }

/-- The second list is the first without some of the entries that satisfy `p`. -/
def LeavesOut {α : Type} (p : α → Prop) [DecidablePred p] (l l' : List α) : Prop :=
  l'.Sublist l ∧ l'.filter (¬p ·) = l.filter (¬p ·)

theorem LeavesOut.refl {α : Type} (p : α → Prop) [DecidablePred p] (l : List α) : LeavesOut p l l :=
  ⟨List.Sublist.refl l, rfl⟩

/-- The second schema is the first without some of the relations of a name. -/
structure LacksRelation (relation : String) (s s' : Schema) : Prop where
  name : s'.name = s.name
  tables : LeavesOut (·.name = relation) s.tables s'.tables
  views : LeavesOut (·.name = relation) s.views s'.views
  materializedViews :
    LeavesOut (·.name = relation) s.materializedViews s'.materializedViews
  functions : s'.functions = s.functions

/-- The second database is the first without some of the relations of a name in a schema. All other
relations, all functions and all schemas are there and in the same order. -/
structure LacksAtMost (schema relation : String) (db db' : Database) : Prop where
  name : db'.name = db.name
  schemas : List.Forall₂ (fun s s' => s' = s ∨ s.name = schema ∧ LacksRelation relation s s')
    db.schemas db'.schemas

section Leaves

variable (c : Catalog) (f : Failure)

theorem leaves_eq_none_iff {s : Schema} :
    f.leaves c s = none ↔ s.name = f.schema ∧ f.reachesView c = true := by
  rw [Failure.leaves]
  split_ifs with hn hreach <;> simp_all

theorem lacksRelation_of_leaves {s s' : Schema} (h : f.leaves c s = some s') :
    s' = s ∨ s.name = f.schema ∧ LacksRelation f.relation s s' := by
  rw [Failure.leaves] at h
  split_ifs at h with hn hreach
  · exact Or.inl (Option.some.inj h).symm
  · refine Or.inr ⟨not_not.1 hn, ?_⟩
    obtain rfl := Option.some.inj h
    exact ⟨rfl, ⟨List.filter_sublist, by simp⟩, .refl _ _, .refl _ _, rfl⟩

/-- At most the relation is lost unless a schema of the database has a view that needs the query. -/
theorem lacksAtMost_leavesOf_iff (db : Database) :
    LacksAtMost f.schema f.relation db (f.leavesOf c db) ↔
      ∀ s ∈ db.schemas, s.name = f.schema → f.reachesView c = false := by
  have hsome : (∀ s ∈ db.schemas, (f.leaves c s).isSome) ↔
      ∀ s ∈ db.schemas, s.name = f.schema → f.reachesView c = false := by
    refine forall₂_congr fun s _ => ?_
    rw [Option.isSome_iff_ne_none, ne_eq, leaves_eq_none_iff, not_and, Bool.not_eq_true]
  rw [← hsome]
  constructor
  · intro h
    exact List.filterMap_length_eq_length.1 h.schemas.length_eq.symm
  · intro h
    refine ⟨rfl, ?_⟩
    rw [Failure.leavesOf]
    generalize db.schemas = schemas at h
    induction schemas with
    | nil => exact .nil
    | cons s schemas ih =>
      obtain ⟨hs, hschemas⟩ := List.forall_mem_cons.1 h
      obtain ⟨s', hs'⟩ := Option.isSome_iff_exists.1 hs
      rw [List.filterMap_cons_some hs']
      exact .cons (lacksRelation_of_leaves c f hs') (ih hschemas)

end Leaves

/-- Where one query about a relation fails, the database is what that leaves of the one that is read
without the failure. It lacks at most the relation, except where a view or materialized view of a
schema in it needs the query: then the schema is lost. -/
theorem readDatabase_failing (c : Catalog) (f : Failure) (name : String) (only : Option String) :
    readDatabase (c.failing f) name only = (readDatabase c name only).map (f.leavesOf c) ∧
      ∀ db, LacksAtMost f.schema f.relation db (f.leavesOf c db) ↔
        ∀ s ∈ db.schemas, s.name = f.schema → f.reachesView c = false := by
  refine ⟨?_, lacksAtMost_leavesOf_iff c f⟩
  cases hnames : c.schemas with
  | error e => simp [readDatabase, hnames, bind, Except.bind, Except.map]
  | ok names =>
    simp [readDatabase, hnames, bind, Except.bind, pure, Except.pure, Except.map, Failure.leavesOf,
      toOption_readSchema_failing, List.filterMap_filterMap]

/-- A schema with a table and a view. -/
def shopCatalog : Catalog where
  schemas := .ok ["public"]
  tables _ := .ok [{ name := "orders" }]
  columns _ _ := .ok []
  indexes _ _ := .ok []
  foreignKeys _ _ := .ok []
  views _ := .ok [{ name := "open_orders" }]
  materializedViews _ := .ok []
  functions _ := .ok []

/-- The columns of a view can cost all tables of its schema. -/
theorem table_lost_with_view : ¬∀ (c : Catalog) (f : Failure) (name : String)
    (only : Option String) (db : Database), readDatabase c name only = .ok db →
      ∃ db', readDatabase (c.failing f) name only = .ok db' ∧
        LacksAtMost f.schema f.relation db db' := by
  intro h
  let f : Failure := ⟨.columns, "public", "open_orders", .database "permission denied"⟩
  have hread : readDatabase shopCatalog "shop" none =
      .ok { name := "shop", schemas := [{ name := "public"
                                          tables := [{ schema := "public", name := "orders" }]
                                          views := [{ name := "open_orders" }] }] } := by
    decide +kernel
  have hfailing : readDatabase (shopCatalog.failing f) "shop" none =
      .ok { name := "shop", schemas := [] } := by
    decide +kernel
  obtain ⟨db', hdb', hlacks⟩ := h _ f _ _ _ hread
  rw [hfailing] at hdb'
  cases hdb'
  cases hlacks.schemas

end Atlas.Sql.Postgres
