import Atlas.Proofs.Firsts
import Atlas.Proofs.Result
import Atlas.Sql.MySql
import Mathlib.Data.List.Forall2

/-!
# What is read of a MySQL catalog

Rows are put together by name one after another. Each group ends up with the rows of its name in
their order, and the groups stand in the order in which their names first occur
(`map_rows_groups`), so no row is lost and none is in two groups (`perm_rows_groups`). The indexes
and the foreign keys of a table are made of such groups (`Grouped`). The database is read if its
tables and views are known, and has just the tables of which every query succeeds
(`readDatabase_catalog`).
-/

namespace Atlas.Sql.MySql

/-! ## Groups -/

section Groups

variable {α : Type} (key : α → String)

/-- A group as its name and its rows. -/
def Group.entry (g : Group α) : String × List α :=
  (g.name, g.rows)

theorem map_name_of_map_entry {gs : List (Group α)} {ks : List String} {f : String → List α}
    (h : gs.map Group.entry = ks.map fun k => (k, f k)) : gs.map (·.name) = ks := by
  have hfst := congrArg (List.map Prod.fst) h
  simpa [Group.entry, Function.comp_def] using hfst

theorem addToGroups_of_notMem {gs : List (Group α)} {a : α} (h : key a ∉ gs.map (·.name)) :
    addToGroups key gs a = gs ++ [⟨key a, a, []⟩] := by
  induction gs with
  | nil => rfl
  | cons g gs ih =>
    rw [List.map_cons, List.mem_cons, not_or] at h
    rw [addToGroups, if_neg (Ne.symm h.1), ih h.2, List.cons_append]

/-- The group of a name gets one more row, if the name is that of one group only. -/
theorem map_entry_addToGroups {gs : List (Group α)} {a : α} (hgs : (gs.map (·.name)).Nodup)
    (h : key a ∈ gs.map (·.name)) : (addToGroups key gs a).map Group.entry =
      (gs.map Group.entry).map fun e => if e.1 = key a then (e.1, e.2 ++ [a]) else e := by
  induction gs with
  | nil => exact absurd h List.not_mem_nil
  | cons g gs ih =>
    obtain ⟨hg, hgs⟩ := List.nodup_cons.1 hgs
    rw [addToGroups]
    by_cases hk : g.name = key a
    · have hrest : ∀ e ∈ gs.map Group.entry, e.1 ≠ key a := by
        rintro e he heq
        obtain ⟨g', hg', rfl⟩ := List.mem_map.1 he
        have hname : g'.name = g.name := heq.trans hk.symm
        have hmem : g'.name ∈ gs.map (·.name) := List.mem_map_of_mem hg'
        exact hg (by rwa [hname] at hmem)
      rw [if_pos hk, List.map_cons, List.map_cons, List.map_cons, Group.entry, Group.entry,
        if_pos hk, List.map_congr_left fun e he => if_neg (hrest e he), List.map_id']
      rfl
    · have hmem : key a ∈ gs.map (·.name) := (List.mem_cons.1 h).resolve_left (Ne.symm hk)
      have hg' : g.entry.1 ≠ key a := hk
      rw [if_neg hk, List.map_cons, List.map_cons, List.map_cons, ih hgs hmem, if_neg hg']

theorem groups_concat (rows : List α) (a : α) :
    groups key (rows ++ [a]) = addToGroups key (groups key rows) a := by
  rw [groups, groups, List.foldl_append]
  rfl

/-- The groups are the names in the order in which they first occur, each with the rows of its
name. -/
theorem map_rows_groups (rows : List α) : (groups key rows).map Group.entry =
    (firsts id (rows.map key)).map fun k => (k, rows.filter (key · = k)) := by
  induction rows using List.reverseRecOn with
  | nil => rfl
  | append_singleton rows a ih =>
    have hnames : (groups key rows).map (·.name) = firsts id (rows.map key) :=
      map_name_of_map_entry ih
    have hnodup : ((groups key rows).map (·.name)).Nodup := by
      rw [hnames]
      simpa using nodup_map_firsts id (rows.map key)
    have hmem : key a ∈ (groups key rows).map (·.name) ↔ key a ∈ rows.map key := by
      rw [hnames]
      simpa using mem_map_firsts id (rows.map key) (key a)
    rw [groups_concat, List.map_append, List.map_singleton, firsts_concat, List.map_id, id]
    by_cases h : key a ∈ rows.map key
    · rw [map_entry_addToGroups key hnodup (hmem.2 h), ih, List.map_map, if_pos h, List.append_nil]
      refine List.map_congr_left fun k _ => ?_
      by_cases hk : k = key a
      · simp [hk]
      · simp [hk, Ne.symm hk]
    · rw [addToGroups_of_notMem key fun h' => h (hmem.1 h'), List.map_append, ih, if_neg h,
        List.map_append]
      congr 1
      · refine List.map_congr_left fun k hk => ?_
        have hne : key a ≠ k := by
          rintro rfl
          exact h (by simpa using (mem_map_firsts id (rows.map key) (key a)).1 (by simpa using hk))
        simp [hne]
      · have hnone : rows.filter (key · = key a) = [] := by
          refine List.filter_eq_nil_iff.2 fun b hb hba => h ?_
          exact of_decide_eq_true hba ▸ List.mem_map_of_mem hb
        simp [Group.entry, Group.rows, hnone]

theorem map_name_groups (rows : List α) :
    (groups key rows).map (·.name) = firsts id (rows.map key) :=
  map_name_of_map_entry (map_rows_groups key rows)

theorem rows_of_mem_groups {rows : List α} {g : Group α} (hg : g ∈ groups key rows) :
    g.rows = rows.filter (key · = g.name) := by
  have hmem : g.entry ∈ (groups key rows).map Group.entry := List.mem_map_of_mem hg
  rw [map_rows_groups] at hmem
  obtain ⟨k, -, hk⟩ := List.mem_map.1 hmem
  obtain ⟨rfl, hrows⟩ := Prod.mk.inj hk
  exact hrows.symm

theorem perm_rows_addToGroups (gs : List (Group α)) (a : α) :
    ((addToGroups key gs a).flatMap Group.rows).Perm (gs.flatMap Group.rows ++ [a]) := by
  induction gs with
  | nil => exact List.Perm.refl _
  | cons g gs ih =>
    rw [addToGroups]
    split
    · have hrows : Group.rows { g with rest := g.rest ++ [a] } = g.rows ++ [a] := rfl
      rw [List.flatMap_cons, List.flatMap_cons, hrows, List.append_assoc, List.append_assoc]
      exact List.Perm.append_left _ List.perm_append_comm
    · rw [List.flatMap_cons, List.flatMap_cons, List.append_assoc]
      exact List.Perm.append_left _ ih

/-- Every row is in one group, as often as it stands among the rows. -/
theorem perm_rows_groups (rows : List α) : ((groups key rows).flatMap Group.rows).Perm rows := by
  induction rows using List.reverseRecOn with
  | nil => exact List.Perm.refl _
  | append_singleton rows a ih =>
    rw [groups_concat]
    exact (perm_rows_addToGroups key _ a).trans (ih.append_right _)

example : (groups id ["b", "a", "b"]).map (fun g => (g.name, g.rows)) =
    [("b", ["b", "b"]), ("a", ["a"])] := by
  decide

end Groups

/-- Things made of rows by name: one for each name, in the order in which the names first occur,
with an entry for each row of its name. -/
structure Grouped {α β γ : Type} (key : α → String) (entry : α → γ) (rows : List α)
    (name : β → String) (entriesOf : β → List γ) (things : List β) : Prop where
  names : things.map name = firsts id (rows.map key)
  entries : ∀ b ∈ things, entriesOf b = (rows.filter (key · = name b)).map entry
  /-- Every row is the entry of one thing. -/
  once : (things.flatMap fun b => (entriesOf b).map (name b, ·)).Perm
    (rows.map fun a => (key a, entry a))

/-- What is made of each group is made of the rows by name. -/
theorem grouped_groups {α β γ : Type} (key : α → String) (entry : α → γ) (rows : List α)
    {name : β → String} {entriesOf : β → List γ} (make : Group α → β)
    (hname : ∀ g, name (make g) = g.name)
    (hentries : ∀ g, entriesOf (make g) = g.rows.map entry) :
    Grouped key entry rows name entriesOf ((groups key rows).map make) where
  names := by
    simp only [List.map_map, Function.comp_def, hname]
    exact map_name_groups key rows
  entries := by
    refine List.forall_mem_map.2 fun g hg => ?_
    rw [hentries, hname, rows_of_mem_groups key hg]
  once := by
    have heach : ∀ g ∈ groups key rows, (entriesOf (make g)).map (name (make g), ·) =
        g.rows.map fun a => (key a, entry a) := by
      intro g hg
      rw [hentries, hname, List.map_map]
      refine List.map_congr_left fun a ha => ?_
      rw [Function.comp_apply, key_of_mem_groups hg ha]
    rw [List.flatMap_map, List.flatMap_congr heach, ← List.map_flatMap]
    exact (perm_rows_groups key rows).map _

/-! ## Tables and views -/

/-- Whether every query about a table succeeds. -/
def Catalog.canRead (c : Catalog) (db table : String) : Bool :=
  (c.columns db table).isOk && (c.indexColumns db table).isOk && (c.rules db table).isOk &&
    (c.keyColumns db table).isOk

/-- The table of a row of the catalog, with the rows of its queries. -/
structure ReadsTable (c : Catalog) (db : String) (row : String × Option String) (t : Table) :
    Prop where
  schema : t.schema = db
  name : t.name = row.1
  comment : t.comment = nonBlank row.2
  columns : ∃ rows, c.columns db row.1 = .ok rows ∧ t.columns = rows.map (·.asColumn)
  indexes : ∃ rows, c.indexColumns db row.1 = .ok rows ∧
    Grouped IndexRow.index IndexRow.column rows Index.name Index.columns t.indexes
  foreignKeys : ∃ rows, c.keyColumns db row.1 = .ok rows ∧
    Grouped KeyRow.constraint (fun r => (r.column, r.targetColumn)) rows ForeignKey.name
      (fun k => k.columns.zip k.targetColumns) t.foreignKeys
  /-- A foreign key has a referenced column for each of its columns. -/
  paired : ∀ k ∈ t.foreignKeys, k.columns.length = k.targetColumns.length

/-- The view of a row of the catalog; it has no columns if the query for them fails. -/
structure ReadsView (c : Catalog) (db : String) (row : String × Option String) (v : View) :
    Prop where
  name : v.name = row.1
  definition : v.definition = Text.trim (row.2.getD "")
  columns : (∃ rows, c.columns db row.1 = .ok rows ∧ v.columns = rows.map (·.asColumn)) ∨
    ∃ e, c.columns db row.1 = .error e ∧ v.columns = []

section Reading

variable (c : Catalog) (db : String)

theorem readsView (row : String × Option String) :
    ReadsView c db row (readView c db row.1 row.2) := by
  refine ⟨rfl, rfl, ?_⟩
  cases h : c.columns db row.1 with
  | ok rows =>
    exact Or.inl ⟨rows, rfl, by simp [readView, readColumns, h, Except.toOption]⟩
  | error e =>
    exact Or.inr ⟨e, rfl, by simp [readView, readColumns, h, Except.toOption]⟩

/-- A table is read from the rows of its four queries. -/
theorem readTable_eq_ok_iff {name : String} {comment : Option String} {t : Table} :
    readTable c db name comment = .ok t ↔ ∃ columnRows indexRows rules keyRows,
      c.columns db name = .ok columnRows ∧ c.indexColumns db name = .ok indexRows ∧
      c.rules db name = .ok rules ∧ c.keyColumns db name = .ok keyRows ∧
      t = { schema := db, name, columns := columnRows.map (·.asColumn)
            indexes := (groups IndexRow.index indexRows).map indexOf
            foreignKeys := (groups KeyRow.constraint keyRows).map (foreignKeyOf db rules)
            comment := nonBlank comment } := by
  simp only [readTable, readColumns, bind_eq_ok_iff, pure, Except.pure, Except.ok.injEq]
  constructor
  · rintro ⟨_, ⟨columnRows, hcolumns, rfl⟩, indexRows, hindexes, rules, hrules, keyRows, hkeys, rfl⟩
    exact ⟨columnRows, indexRows, rules, keyRows, hcolumns, hindexes, hrules, hkeys, rfl⟩
  · rintro ⟨columnRows, indexRows, rules, keyRows, hcolumns, hindexes, hrules, hkeys, rfl⟩
    exact ⟨_, ⟨columnRows, hcolumns, rfl⟩, indexRows, hindexes, rules, hrules, keyRows, hkeys, rfl⟩

theorem readsTable {row : String × Option String} {t : Table}
    (h : readTable c db row.1 row.2 = .ok t) : ReadsTable c db row t := by
  obtain ⟨columnRows, indexRows, rules, keyRows, hcolumns, hindexes, -, hkeys, rfl⟩ :=
    (readTable_eq_ok_iff c db).1 h
  refine ⟨rfl, rfl, rfl, ⟨columnRows, hcolumns, rfl⟩, ⟨indexRows, hindexes, ?_⟩,
    ⟨keyRows, hkeys, ?_⟩, List.forall_mem_map.2 fun g _ => ?_⟩
  · exact grouped_groups _ _ indexRows indexOf (fun _ => rfl) fun _ => rfl
  · refine grouped_groups _ _ keyRows (foreignKeyOf db rules) (fun _ => rfl) fun g => ?_
    rw [foreignKeyOf, List.zip_map']
  · rw [foreignKeyOf, List.length_map, List.length_map]

/-- A table is read exactly if its four queries succeed. -/
theorem isSome_readTable (row : String × Option String) :
    (readTable c db row.1 row.2).toOption.isSome = c.canRead db row.1 := by
  rw [readTable, readColumns, Catalog.canRead]
  cases c.columns db row.1 with
  | error e => rfl
  | ok columnRows =>
    cases c.indexColumns db row.1 with
    | error e => rfl
    | ok indexRows =>
      cases c.rules db row.1 with
      | error e => rfl
      | ok rules => cases c.keyColumns db row.1 <;> rfl

theorem forall₂_readsTable (rows : List (String × Option String)) :
    List.Forall₂ (ReadsTable c db) (rows.filter fun row => c.canRead db row.1)
      (rows.filterMap fun row => (readTable c db row.1 row.2).toOption) := by
  induction rows with
  | nil => exact .nil
  | cons row rows ih =>
    have hread := isSome_readTable c db row
    rw [List.filterMap_cons, List.filter_cons, ← hread]
    cases ht : (readTable c db row.1 row.2).toOption with
    | none => exact ih
    | some t => exact .cons (readsTable c db (toOption_eq_some_iff.1 ht)) ih

/-- A database is read unless the query for its tables or the one for its views fails. It is one
schema of its name, with the tables of which every query succeeds and with all views, in the order
of the catalog. -/
theorem readDatabase_catalog :
    (∀ e, readDatabase c db = .error e ↔
      c.tables db = .error e ∨ (∃ rows, c.tables db = .ok rows) ∧ c.views db = .error e) ∧
    ∀ tableRows viewRows, c.tables db = .ok tableRows → c.views db = .ok viewRows →
      ∃ tables views,
        readDatabase c db = .ok { name := db, schemas := [{ name := db, tables, views }] } ∧
        List.Forall₂ (ReadsTable c db) (tableRows.filter fun row => c.canRead db row.1) tables ∧
        List.Forall₂ (ReadsView c db) viewRows views := by
  constructor
  · intro e
    cases ht : c.tables db <;> cases hv : c.views db <;>
      simp [readDatabase, ht, hv, bind, Except.bind, pure, Except.pure]
  · intro tableRows viewRows ht hv
    refine ⟨_, viewRows.map fun row => readView c db row.1 row.2, ?_,
      forall₂_readsTable c db tableRows, ?_⟩
    · simp only [readDatabase, ht, hv, bind, Except.bind, pure, Except.pure]
    · exact List.forall₂_map_right_iff.2 (List.forall₂_same.2 fun row _ => readsView c db row)

end Reading

/-- A catalog with two tables, of which one cannot be read, and a view without columns. The rows of
the other table's indexes and foreign keys stand among each other. -/
def ordersCatalog : Catalog where
  tables _ := .ok [("audit", none), ("orders", some "open orders")]
  columns _ table := if table = "orders" then .ok [{ name := "id" }] else .error (.database "denied")
  indexColumns _ _ := .ok [⟨"by_day", "day", 1, ""⟩, ⟨"PRIMARY", "id", 0, ""⟩, ⟨"by_day", "id", 1, ""⟩]
  keyColumns _ _ := .ok [⟨"place", "country", none, "places", "country"⟩,
    ⟨"buyer", "customer", none, "customers", "id"⟩, ⟨"place", "city", none, "places", "name"⟩]
  rules _ _ := .ok []
  views _ := .ok [("open_orders", none)]

theorem readDatabase_ordersCatalog :
    ordersCatalog.tables "shop" = .ok [("audit", none), ("orders", some "open orders")] ∧
      ordersCatalog.views "shop" = .ok [("open_orders", none)] ∧
      ∃ tables views, readDatabase ordersCatalog "shop" =
          .ok { name := "shop", schemas := [{ name := "shop", tables, views }] } ∧
        List.Forall₂ (ReadsTable ordersCatalog "shop") [("orders", some "open orders")] tables ∧
        List.Forall₂ (ReadsView ordersCatalog "shop") [("open_orders", none)] views :=
  ⟨rfl, rfl, (readDatabase_catalog ordersCatalog "shop").2 _ _ rfl rfl⟩

end Atlas.Sql.MySql
