import Atlas.Proofs.Result
import Atlas.Proofs.Words
import Atlas.Sql.Postgres
import Mathlib.Data.List.Forall2

/-!
# Columns of keys and indexes

A catalog lists the columns of a foreign key and of an index with commas between them
(`DeclaredKey.listed`, `DeclaredIndex.listed`). Such a list is cut at every comma, the pieces are
trimmed, and blank ones are left out, so each name is replaced by the items in it
(`listItems_intercalate`). The names are found again exactly if each of them is an item itself
(`listItems_intercalate_eq_iff`). Two lists stay paired under the same condition on both
(`zip_listItems_eq_iff`): one name that is cut moves all columns behind it. This holds for the keys
and indexes of every relation whose queries succeed (`Postgres.columns_listed`).
-/

set_option linter.unusedSectionVars false

namespace Atlas.Sql

/-! ## Items -/

/-- A name that is read as it is: neither empty nor cut nor trimmed. -/
structure IsItem (s : String) : Prop where
  ne_empty : s ≠ ""
  comma_notMem : ',' ∉ s.toList
  trim : Text.trim s = s

theorem isItem_of_mem_listItems {s t : String} (h : t ∈ listItems s) : IsItem t := by
  obtain ⟨hmem, hne⟩ := List.mem_filter.1 h
  obtain ⟨w, hw, rfl⟩ := List.mem_map.1 hmem
  have hcomma := Text.notMem_of_mem_splitOn hw
  refine ⟨by simpa using hne, fun hc => hcomma ?_, Text.trim_trim w⟩
  exact (Text.isInfix_trimWhile Chars.isBlank w).subset hc

theorem listItems_of_isItem {s : String} (h : IsItem s) : listItems s = [s] := by
  rw [listItems, Text.splitOn_of_char_notMem h.comma_notMem, List.map_singleton, h.trim]
  simp [h.ne_empty]

/-- A list with commas has the items of all that is in it. -/
theorem listItems_intercalate (ss : List String) :
    listItems (",".intercalate ss) = ss.flatMap listItems := by
  by_cases hne : ss = []
  · rw [hne]
    decide
  · rw [listItems, Text.splitOn_intercalate rfl hne, List.map_flatMap, List.filter_flatMap]
    rfl

/-- Names are found again in a list of them exactly if all are items. -/
theorem listItems_intercalate_eq_iff {ss : List String} :
    listItems (",".intercalate ss) = ss ↔ ∀ s ∈ ss, IsItem s := by
  constructor
  · intro h s hs
    rw [← h] at hs
    exact isItem_of_mem_listItems hs
  · intro h
    rw [listItems_intercalate, List.flatMap_congr fun s hs => listItems_of_isItem (h s hs)]
    exact List.flatMap_singleton' ss

/-- Names are paired in two lists as they were exactly if all are items. -/
theorem zip_listItems_eq_iff {ps : List (String × String)} :
    (listItems (",".intercalate (ps.map (·.1)))).zip
        (listItems (",".intercalate (ps.map (·.2)))) = ps ↔
      ∀ p ∈ ps, IsItem p.1 ∧ IsItem p.2 := by
  constructor
  · intro h p hp
    rw [← h] at hp
    obtain ⟨hfst, hsnd⟩ := List.of_mem_zip hp
    exact ⟨isItem_of_mem_listItems hfst, isItem_of_mem_listItems hsnd⟩
  · intro h
    rw [listItems_intercalate_eq_iff.2 (List.forall_mem_map.2 fun p hp => (h p hp).1),
      listItems_intercalate_eq_iff.2 (List.forall_mem_map.2 fun p hp => (h p hp).2)]
    exact (List.zip_of_prod rfl rfl).symm

namespace Postgres

/-! ## Keys and indexes of a catalog -/

/-- A foreign key of a catalog, with its columns and the columns they refer to. -/
structure DeclaredKey where
  row : ForeignKeyRow
  pairs : List (String × String)

/-- An index of a catalog, with its columns. -/
structure DeclaredIndex where
  row : IndexRow
  columns : List String

/-- The row in which the columns are listed. -/
def DeclaredKey.listed (d : DeclaredKey) : ForeignKeyRow :=
  { d.row with
    columns := some (",".intercalate (d.pairs.map (·.1)))
    targetColumns := some (",".intercalate (d.pairs.map (·.2))) }

/-- The row in which the columns are listed. -/
def DeclaredIndex.listed (d : DeclaredIndex) : IndexRow :=
  { d.row with columns := some (",".intercalate d.columns) }

/-- A key with the name and, as far as their names are items, the columns of the declared one. -/
structure ShowsKey (d : DeclaredKey) (k : ForeignKey) : Prop where
  name : k.name = d.row.name
  columns : k.columns = d.pairs.map (·.1) ↔ ∀ p ∈ d.pairs, IsItem p.1
  targetColumns : k.targetColumns = d.pairs.map (·.2) ↔ ∀ p ∈ d.pairs, IsItem p.2
  paired : k.columns.zip k.targetColumns = d.pairs ↔ ∀ p ∈ d.pairs, IsItem p.1 ∧ IsItem p.2

/-- An index with the name and, as far as their names are items, the columns of the declared one. -/
structure ShowsIndex (d : DeclaredIndex) (i : Index) : Prop where
  name : i.name = d.row.name
  columns : i.columns = d.columns ↔ ∀ s ∈ d.columns, IsItem s

theorem DeclaredKey.shows (d : DeclaredKey) : ShowsKey d d.listed.foreignKey where
  name := rfl
  columns := listItems_intercalate_eq_iff.trans List.forall_mem_map
  targetColumns := listItems_intercalate_eq_iff.trans List.forall_mem_map
  paired := zip_listItems_eq_iff

theorem DeclaredIndex.shows (d : DeclaredIndex) : ShowsIndex d d.listed.index where
  name := rfl
  columns := listItems_intercalate_eq_iff

section Relation

variable {c : Catalog} {schema relation : String} {columns : List ColumnRow}
  {ks : List DeclaredKey} {is : List DeclaredIndex}

theorem readColumns_of_ok (h : c.columns schema relation = .ok columns) :
    readColumns c schema relation = .ok ((firstRows columns).map (·.column)) := by
  rw [readColumns, h]
  rfl

theorem readIndexes_listed (h : c.indexes schema relation = .ok (is.map (·.listed))) :
    ∃ js, readIndexes c schema relation = .ok js ∧ List.Forall₂ ShowsIndex is js := by
  refine ⟨is.map (·.listed.index), ?_, ?_⟩
  · rw [readIndexes, h]
    simp [bind, Except.bind, pure, Except.pure]
  · exact List.forall₂_map_right_iff.2 (List.forall₂_same.2 fun d _ => d.shows)

theorem readTable_of_ok {r : TableRow} {indexes : List Index} {keys : List ForeignKeyRow}
    (hcolumns : c.columns schema r.name = .ok columns)
    (hindexes : readIndexes c schema r.name = .ok indexes)
    (hkeys : c.foreignKeys schema r.name = .ok keys) :
    readTable c schema r = .ok
      { schema, name := r.name, columns := (firstRows columns).map (·.column), indexes
        foreignKeys := keys.map (·.foreignKey), comment := nonBlank r.comment
        owner := nonBlank r.owner, inherits := listItems (r.inherits.getD "") } := by
  rw [readTable, readColumns_of_ok hcolumns, hindexes, hkeys]
  rfl

theorem readMaterializedView_of_ok {r : ViewRow} {indexes : List Index}
    (hcolumns : c.columns schema r.name = .ok columns)
    (hindexes : readIndexes c schema r.name = .ok indexes) :
    readMaterializedView c schema r =
      .ok (r.view ((firstRows columns).map (·.column)) indexes) := by
  rw [readMaterializedView, readColumns_of_ok hcolumns, hindexes]
  rfl

/-- The keys and indexes of a relation whose queries succeed have the columns of the declared ones,
and in the same pairs, exactly if the names of these are items. -/
theorem columns_listed (hcolumns : c.columns schema relation = .ok columns)
    (hindexes : c.indexes schema relation = .ok (is.map (·.listed)))
    (hkeys : c.foreignKeys schema relation = .ok (ks.map (·.listed))) :
    (∀ r : TableRow, r.name = relation → ∃ t, readTable c schema r = .ok t ∧
      List.Forall₂ ShowsKey ks t.foreignKeys ∧ List.Forall₂ ShowsIndex is t.indexes) ∧
    ∀ r : ViewRow, r.name = relation → ∃ v, readMaterializedView c schema r = .ok v ∧
      List.Forall₂ ShowsIndex is v.indexes := by
  obtain ⟨indexes, hread, hshows⟩ := readIndexes_listed hindexes
  have hks : List.Forall₂ ShowsKey ks ((ks.map (·.listed)).map (·.foreignKey)) := by
    rw [List.map_map]
    exact List.forall₂_map_right_iff.2 (List.forall₂_same.2 fun d _ => d.shows)
  constructor
  · rintro r rfl
    exact ⟨_, readTable_of_ok hcolumns hread hkeys, hks, hshows⟩
  · rintro r rfl
    exact ⟨_, readMaterializedView_of_ok hcolumns hread, hshows⟩

/-- A key of two columns, of which the first has a comma in its name. -/
def peopleKey : DeclaredKey where
  row := { name := "orders_people", schema := "public", table := "people" }
  pairs := [("last, first", "name"), ("code", "code")]

/-- A key of two columns whose names are items, one with a blank inside. -/
def itemsKey : DeclaredKey where
  row := { name := "lines_items", schema := "public", table := "items" }
  pairs := [("order id", "order"), ("line", "number")]

def itemsIndex : DeclaredIndex where
  row := { name := "lines_key" }
  columns := ["order id", "line"]

/-- A catalog of relations with these keys and this index. -/
def keysCatalog : Catalog where
  schemas := .ok ["public"]
  tables _ := .ok [{ name := "lines" }]
  columns _ _ := .ok [{ name := "order id" }, { name := "line" }]
  indexes _ _ := .ok [itemsIndex.listed]
  foreignKeys _ _ := .ok [itemsKey.listed, peopleKey.listed]
  views _ := .ok []
  materializedViews _ := .ok []
  functions _ := .ok []

theorem columns_listed_keysCatalog :
    ∃ t, readTable keysCatalog "public" { name := "lines" } = .ok t ∧
      List.Forall₂ ShowsKey [itemsKey, peopleKey] t.foreignKeys ∧
      List.Forall₂ ShowsIndex [itemsIndex] t.indexes := by
  have hcolumns : keysCatalog.columns "public" "lines" =
      .ok [{ name := "order id" }, { name := "line" }] := rfl
  have hindexes : keysCatalog.indexes "public" "lines" = .ok ([itemsIndex].map (·.listed)) := rfl
  have hkeys : keysCatalog.foreignKeys "public" "lines" =
      .ok ([itemsKey, peopleKey].map (·.listed)) := rfl
  exact (columns_listed hcolumns hindexes hkeys).1 { name := "lines" } rfl

/-- A comma in a name moves the columns behind it. -/
theorem columns_shifted :
    peopleKey.listed.foreignKey.columns = ["last", "first", "code"] ∧
    peopleKey.listed.foreignKey.columns.zip peopleKey.listed.foreignKey.targetColumns =
      [("last", "name"), ("first", "code")] ∧
    peopleKey.pairs = [("last, first", "name"), ("code", "code")] := by
  decide

end Relation

end Postgres

end Atlas.Sql
