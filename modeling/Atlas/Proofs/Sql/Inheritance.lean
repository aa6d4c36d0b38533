import Atlas.Proofs.Sql.Arguments
import Atlas.Proofs.Sql.ForeignKeys
import Atlas.Proofs.Sql.Graph

/-!
# Inheritance in the graph and the diagram of a database

The graph and the diagram resolve the parents of a table independently of each other. Both cut a
parent at its first period. The graph drops the quotes around the pieces (`parentEntity`), the
diagram keeps them (`drawnParent`). Dropping quotes only makes a name shorter, so both find the same
table exactly if there is nothing to drop (`relationKey_drawnParent_iff`), and where the graph
resolves a parent to a table of the database, its edge ends at the node of this table exactly if the
parent is written without quotes (`showsParents`).

A server prints the parent of a table with its schema or without (`printedTable`), each name in
double quotes with its own double quotes doubled, unless it is plain. Since the graph undoes no
doubling and drops all quotes at the ends, a name is found again exactly if it has no double quotes
(`unquoted_quoteName_iff`). A period in a name is taken for the one behind the schema, unless it
comes after that one. So a parent is resolved to its table exactly if neither name has a double quote
and the first of them no period (`parentEntity_printedTable_iff`).
-/

namespace Atlas.Sql

open PlantUml Identifiers

/-! ## Quotes -/

theorem isInfix_unquoted (s : String) : (unquoted s).toList <:+: s.toList :=
  Text.isInfix_trimWhile _ s

theorem unquoted_eq_of_length {s : String} (h : s.toList.length ≤ (unquoted s).toList.length) :
    unquoted s = s :=
  String.toList_inj.1 ((isInfix_unquoted s).eq_of_length_le h)

theorem relationKey_right_inj {schema name name' : String} :
    relationKey schema name = relationKey schema name' ↔ name = name' := by
  simp [relationKey, ← String.toList_inj]

/-- No name without quotes makes up for a schema that lost some. -/
theorem relationKey_unquoted_iff {schema name : String} :
    relationKey schema name = relationKey (unquoted schema) (unquoted name) ↔
      unquoted schema = schema ∧ unquoted name = name := by
  refine ⟨fun h => ?_, fun ⟨hschema, hname⟩ => by rw [hschema, hname]⟩
  have hlength := congrArg (fun s : String => s.toList.length) h
  have hschema := (isInfix_unquoted schema).length_le
  have hname := (isInfix_unquoted name).length_le
  simp only [relationKey, String.toList_append, List.length_append] at hlength
  exact ⟨unquoted_eq_of_length (by omega), unquoted_eq_of_length (by omega)⟩

/-- Whether a parent is written without quotes around its name and its schema. -/
def isPlain (parent : String) : Bool :=
  match Text.cut? "." parent with
  | some (s, t) => unquoted s == s && unquoted t == t
  | none => unquoted parent == parent

/-- The graph and the diagram find the same table for plain parents only. -/
theorem relationKey_drawnParent_iff {schema parent schema' name : String}
    (h : parentEntity schema parent = tableEntity schema' name) :
    relationKey (drawnParent schema parent).1 (drawnParent schema parent).2 =
      relationKey schema' name ↔ isPlain parent = true := by
  rw [parentEntity] at h
  rw [drawnParent, isPlain]
  cases hcut : Text.cut? "." parent with
  | none =>
    rw [hcut] at h
    cases h
    rw [Option.getD_none, relationKey_right_inj, beq_iff_eq, eq_comm]
  | some r =>
    rw [hcut] at h
    cases h
    rw [Option.getD_some, relationKey_unquoted_iff, Bool.and_eq_true, beq_iff_eq, beq_iff_eq]

/-! ## Parents -/

/-- A parent of a table as its schema names it. -/
structure Parent where
  schema : Schema
  table : Table
  text : String

/-- The relation of a table to its parent. -/
def Parent.relation (p : Parent) : Relation :=
  ⟨tableEntity p.schema.name p.table.name, parentEntity p.schema.name p.text, .inherits, none⟩

namespace Database

/-- The tables of a database, each with its schema. -/
def placedTables (db : Database) : List (Schema × Table) :=
  db.schemas.flatMap fun s => s.tables.map (s, ·)

/-- The parents of a database, in the order of the schemas, of their tables and of the tables'
parents. -/
def parents (db : Database) : List Parent :=
  db.placedTables.flatMap fun r => r.2.inherits.map (⟨r.1, r.2, ·⟩)

/-- The nodes that the diagram of a database has for tables. -/
def tableNodes (db : Database) : List Node :=
  Sql.tableNodes ((placed db.diagram).map (·.2))

/-- The tables of a database, each with its schema and its node. -/
def drawnTables (db : Database) : List ((Schema × Table) × Node) :=
  db.placedTables.zip db.tableNodes

end Database

theorem map_parents (db : Database) :
    db.parents.map (fun p => (p.table, p.text)) = db.inheritances := by
  simp [Database.parents, Database.placedTables, Database.inheritances, Database.tables,
    List.map_flatMap, List.flatMap_assoc, List.flatMap_map, Function.comp_def]

theorem relationsOfKind_inherits (db : Database) :
    db.graph.relationsOfKind .inherits = db.parents.map Parent.relation := by
  have hcontainments : (firsts (·.target) db.containments).filter (·.kind = .inherits) = [] := by
    refine filter_eq_nil_of_forall_not fun r hr => ?_
    obtain ⟨s, -, e, -, rfl⟩ := mem_containments.1 ((firsts_sublist _ _).subset hr)
    exact nofun
  rw [Graph.relationsOfKind, relations_graph, List.filter_append, hcontainments, List.nil_append]
  simp [Database.dependencies, Database.parents, Database.placedTables, Parent.relation,
    List.filter_flatMap, List.map_flatMap, List.flatMap_assoc, List.flatMap_map, List.filter_map,
    Function.comp_def]

/-! ## Nodes and edges -/

/-- Identifiers in which the nodes of the tables and both ends of the parents' edges are known. -/
theorem identifiers_of_tables (db : Database) : ∃ ids, Reached ids ∧
    List.Forall₂ (fun r n => StandsFor ids (r.2.schema, r.2.name) n) db.placedTables db.tableNodes ∧
    List.Forall₂ (fun p e => LinksParent ids p.table p.text e) db.parents
      (parentEdges db.diagram.edges) := by
  obtain ⟨ids, containers, hids, hcontainers, hplaced, -, hparents⟩ := identifiers_of_diagram db
  refine ⟨ids, hids, ?_, ?_⟩
  · have hnodes : db.tableNodes = containers.flatMap fun c => tableNodes c.nodes := by
      simp [Database.tableNodes, tableNodes, hplaced, List.map_flatMap, List.filter_flatMap,
        Function.comp_def]
    rw [hnodes]
    exact List.rel_flatMap hcontainers fun s c hc => List.forall₂_map_left_iff.2 hc.tables
  · rw [← map_parents] at hparents
    exact List.forall₂_map_left_iff.1 hparents

theorem labels_tableNodes (db : Database) :
    db.tableNodes.map (·.label) = db.placedTables.map (·.2.name) := by
  obtain ⟨ids, -, hnodes, -⟩ := identifiers_of_tables db
  have hlabels : List.Forall₂ Eq (db.placedTables.map (·.2.name)) (db.tableNodes.map (·.label)) :=
    List.forall₂_map_left_iff.2 (List.forall₂_map_right_iff.2
      (hnodes.imp fun _ _ hn => hn.label.symm))
  rw [List.forall₂_eq_eq_eq] at hlabels
  exact hlabels.symm

theorem exists_mem_zip {α β : Type} {as : List α} {bs : List β} (h : as.length = bs.length) {a : α}
    (ha : a ∈ as) : ∃ b, (a, b) ∈ as.zip bs := by
  rw [← List.map_fst_zip h.le] at ha
  obtain ⟨⟨_, b⟩, hb, rfl⟩ := List.mem_map.1 ha
  exact ⟨b, hb⟩

theorem tableEntities_eq (db : Database) :
    db.tableEntities = db.placedTables.map fun r => tableEntity r.1.name r.2.name := by
  simp [Database.tableEntities, Database.placedTables, List.map_flatMap, Function.comp_def]

theorem mem_placedTables_of_mem_parents {db : Database} {p : Parent} (hp : p ∈ db.parents) :
    (p.schema, p.table) ∈ db.placedTables := by
  obtain ⟨r, hr, hp⟩ := List.mem_flatMap.1 hp
  obtain ⟨text, -, rfl⟩ := List.mem_map.1 hp
  exact hr

/-- The edge of a parent, among the nodes of the tables. -/
structure DrawsParent (db : Database) (p : Parent) (e : Edge) : Prop where
  /-- It starts at the node of the table that names the parent. -/
  source : ∃ n, ((p.schema, p.table), n) ∈ db.drawnTables ∧ n.id = e.source
  /-- It ends at the node of a table with the schema and the name that the parent is drawn with. -/
  target : ∀ r n, (r, n) ∈ db.drawnTables → (e.target = n.id ↔
    relationKey (drawnParent p.table.schema p.text).1 (drawnParent p.table.schema p.text).2 =
      relationKey r.2.schema r.2.name)
  /-- Where the graph resolves the parent to a table, the edge ends at the node of this table just
  if the parent is plain. -/
  agrees : p.table.schema = p.schema.name → ∀ r n, (r, n) ∈ db.drawnTables →
    r.2.schema = r.1.name → p.relation.target = tableEntity r.1.name r.2.name →
      (e.target = n.id ↔ isPlain p.text = true)

theorem draws_parents (db : Database) :
    List.Forall₂ (DrawsParent db) db.parents (parentEdges db.diagram.edges) := by
  obtain ⟨ids, hids, hnodes, hparents⟩ := identifiers_of_tables db
  have hid : ∀ r n, (r, n) ∈ db.drawnTables →
      ids.lookup? (relationKey r.2.schema r.2.name) = some n.id := fun r n hrn =>
    ((List.forall₂_iff_zip.1 hnodes).2 hrn).id
  have hholders : ∀ p ∈ db.parents, (p.schema, p.table) ∈ db.placedTables := fun p hp =>
    mem_placedTables_of_mem_parents hp
  refine ((List.forall₂_and_left _ _).2 ⟨hholders, hparents⟩).imp ?_
  rintro p e ⟨hholder, hsource, htarget⟩
  have hends : ∀ r n, (r, n) ∈ db.drawnTables → (e.target = n.id ↔
      relationKey (drawnParent p.table.schema p.text).1 (drawnParent p.table.schema p.text).2 =
        relationKey r.2.schema r.2.name) := by
    intro r n hrn
    constructor
    · intro heq
      exact hids.key_inj htarget (heq ▸ hid r n hrn)
    · intro hkey
      rw [hkey] at htarget
      exact Option.some.inj (htarget.symm.trans (hid r n hrn))
  refine ⟨?_, hends, fun hschema r n hrn hplaced hresolved => ?_⟩
  · obtain ⟨n, hn⟩ := exists_mem_zip hnodes.length_eq hholder
    exact ⟨n, hn, Option.some.inj ((hid _ n hn).symm.trans hsource)⟩
  · rw [hends r n hrn, hschema, hplaced]
    exact relationKey_drawnParent_iff hresolved

/-- Whether the edge of each parent that the graph resolves to a table of the database ends at the
node of this table. -/
def ParentsAgree (db : Database) : Prop :=
  List.Forall₂ (fun p e => ∀ x ∈ db.drawnTables,
    p.relation.target = tableEntity x.1.1.name x.1.2.name → e.target = x.2.id)
    db.parents (parentEdges db.diagram.edges)

/-- If the tables name their own schemas, the graph and the diagram agree just if all parents that
are tables of the database are plain. -/
theorem parentsAgree_iff {db : Database} (hplaced : ∀ r ∈ db.placedTables, r.2.schema = r.1.name) :
    ParentsAgree db ↔ ∀ p ∈ db.parents, p.relation.target ∈ db.tableEntities →
      isPlain p.text = true := by
  have hedges := draws_parents db
  have hschema : ∀ p ∈ db.parents, p.table.schema = p.schema.name := fun p hp =>
    hplaced _ (mem_placedTables_of_mem_parents hp)
  constructor
  · intro h p hp htarget
    rw [tableEntities_eq] at htarget
    obtain ⟨r, hr, hresolved⟩ := List.mem_map.1 htarget
    obtain ⟨e, he⟩ := exists_mem_zip hedges.length_eq hp
    have hlength := congrArg List.length (labels_tableNodes db)
    rw [List.length_map, List.length_map] at hlength
    obtain ⟨n, hn⟩ := exists_mem_zip hlength.symm hr
    have hends := (List.forall₂_iff_zip.1 h).2 he (r, n) hn hresolved.symm
    have hdraws := (List.forall₂_iff_zip.1 hedges).2 he
    exact (hdraws.agrees (hschema p hp) r n hn (hplaced r hr) hresolved.symm).1 hends
  · intro h
    have hall : ∀ p ∈ db.parents, (p.relation.target ∈ db.tableEntities → isPlain p.text = true) ∧
        p.table.schema = p.schema.name := fun p hp => ⟨h p hp, hschema p hp⟩
    refine ((List.forall₂_and_left _ _).2 ⟨hall, hedges⟩).imp ?_
    rintro p e ⟨⟨hplain, hschema⟩, he⟩ ⟨r, n⟩ hrn hresolved
    have hr := (List.of_mem_zip hrn).1
    have hmem : p.relation.target ∈ db.tableEntities := by
      rw [tableEntities_eq, hresolved]
      exact List.mem_map_of_mem hr
    exact (he.agrees hschema r n hrn (hplaced r hr) hresolved).2 (hplain hmem)

/-- What the graph and the diagram of a database show of its parents. -/
structure ShowsParents (db : Database) : Prop where
  /-- The tables have their nodes, in their order. -/
  tables : db.tableNodes.map (·.label) = db.placedTables.map (·.2.name)
  relations : db.graph.relationsOfKind .inherits = db.parents.map Parent.relation
  edges : List.Forall₂ (DrawsParent db) db.parents (parentEdges db.diagram.edges)
  agree : (∀ r ∈ db.placedTables, r.2.schema = r.1.name) →
    (ParentsAgree db ↔ ∀ p ∈ db.parents, p.relation.target ∈ db.tableEntities →
      isPlain p.text = true)

/-- Every parent is one relation of the graph and one edge of the diagram, in the same order. The
edge of a parent that the graph resolves to a table of the database ends at the node of this table
exactly if the parent is written without quotes. -/
theorem showsParents (db : Database) : ShowsParents db :=
  ⟨labels_tableNodes db, relationsOfKind_inherits db, draws_parents db, parentsAgree_iff⟩

/-- A table with a parent in quotes, as a catalog prints a name that is not in lower case. -/
def mixedCaseDatabase : Database where
  name := "shop"
  schemas := [
    { name := "public"
      tables := [{ schema := "public", name := "Orders" },
        { schema := "public", name := "orders_2024", inherits := ["\"Orders\""] }] }]

/-- The graph resolves the parent in quotes to the table of that name. Its edge ends at an
identifier made of the quotes as well, which no node has. -/
theorem parents_disagree : ¬∀ db : Database, ParentsAgree db := by
  intro h
  have hagree := h mixedCaseDatabase
  rw [ParentsAgree] at hagree
  revert hagree
  decide +kernel

/-! ## Parents as a server prints them -/

section Printed

variable {keyword : String → Bool}

/-- A table as a server prints it: the schema, where there is one, and the name, each in double
quotes unless it is plain. -/
def printedTable (keyword : String → Bool) (schema : Option String) (name : String) : String :=
  match schema with
  | some s => quoteName keyword s ++ "." ++ quoteName keyword name
  | none => quoteName keyword name

theorem tableEntity_inj {schema name schema' name' : String} :
    tableEntity schema name = tableEntity schema' name' ↔ schema = schema' ∧ name = name' := by
  simp [tableEntity, and_comm]

theorem head?_double (q : Char) (s : List Char) :
    (Chars.replace [q] [q, q] s).head? = s.head? := by
  rw [Chars.replace_singleton]
  cases s with
  | nil => rfl
  | cons c s =>
    rw [List.flatMap_cons]
    split_ifs with hc <;> simp [hc]

theorem getLast?_double (q : Char) (s : List Char) :
    (Chars.replace [q] [q, q] s).getLast? = s.getLast? := by
  rw [Chars.replace_singleton]
  cases s using List.reverseRecOn with
  | nil => rfl
  | append_singleton s c =>
    rw [List.flatMap_append, List.flatMap_singleton]
    split_ifs with hc <;> simp [hc]

/-- A text whose quotes are doubled is the text itself without the quotes at its ends just if there
are no quotes. -/
theorem trimWhile_double_eq_self_iff {q : Char} {s : List Char} :
    Chars.trimWhile (· == q) (Chars.replace [q] [q, q] s) = s ↔ q ∉ s := by
  constructor
  · intro h
    have hends : Chars.trimWhile (· == q) s = s := by
      rw [← h, Chars.trimWhile_trimWhile]
    rw [Chars.trimWhile_eq_self_iff, ← head?_double q, ← getLast?_double q s,
      ← Chars.trimWhile_eq_self_iff, h] at hends
    have hcount := count_double q q s
    rw [← hends, if_pos rfl] at hcount
    exact List.count_eq_zero.1 (by omega)
  · intro h
    rw [Chars.replace_of_not_mem h, Chars.trimWhile_eq_self_iff]
    exact ⟨fun c hc => beq_false_of_ne (ne_of_mem_of_not_mem (List.mem_of_mem_head? hc) h),
      fun c hc => beq_false_of_ne (ne_of_mem_of_not_mem (List.mem_of_mem_getLast? hc) h)⟩

theorem quoteName_cases (keyword : String → Bool) (name : String) :
    quoteName keyword name = name ∧ (∀ c ∈ name.toList, isPlainChar c = true) ∨
      (quoteName keyword name).toList =
        '"' :: (Chars.replace ['"'] ['"', '"'] name.toList ++ ['"']) := by
  rw [quoteName]
  split_ifs with h
  · exact Or.inl ⟨rfl, fun c hc => isPlainChar_of_mem h hc⟩
  · right
    simp [Text.replace, Text.onChars]

/-- A name is found again in what is printed of it just if it has no double quotes. -/
theorem unquoted_quoteName_iff {name : String} :
    unquoted (quoteName keyword name) = name ↔ '"' ∉ name.toList := by
  obtain ⟨hname, hplain⟩ | hquoted := quoteName_cases keyword name
  · have hnot : '"' ∉ name.toList := fun h => absurd (hplain _ h) (by decide)
    rw [hname]
    refine iff_of_true (String.toList_inj.1 ?_) hnot
    rw [unquoted, Text.trimWhile, Text.onChars, String.toList_ofList]
    have h := trimWhile_double_eq_self_iff.2 hnot
    rwa [Chars.replace_of_not_mem hnot] at h
  · rw [← String.toList_inj, unquoted, Text.trimWhile, Text.onChars, String.toList_ofList, hquoted,
      Chars.trimWhile_surround rfl, trimWhile_double_eq_self_iff]

/-- The quotes change how often no other character stands in a name. -/
theorem count_quoteName {c : Char} (hc : c ≠ '"') (name : String) :
    (quoteName keyword name).toList.count c = name.toList.count c := by
  obtain ⟨hname, -⟩ | hquoted := quoteName_cases keyword name
  · rw [hname]
  · rw [hquoted, List.count_cons_of_ne (Ne.symm hc), List.count_append, count_double, if_neg hc,
      List.count_cons_of_ne (Ne.symm hc), List.count_nil, Nat.add_zero]

theorem period_notMem_quoteName {name : String} :
    '.' ∉ (quoteName keyword name).toList ↔ '.' ∉ name.toList := by
  rw [← List.count_eq_zero, count_quoteName (by decide), List.count_eq_zero]

theorem count_unquoted_le (c : Char) (s : String) :
    (unquoted s).toList.count c ≤ s.toList.count c :=
  (isInfix_unquoted s).sublist.count_le c

theorem parentEntity_of_notMem {parent : String} (h : '.' ∉ parent.toList) (schema : String) :
    parentEntity schema parent = tableEntity schema (unquoted parent) := by
  rw [parentEntity, (Text.cut?_eq_none rfl).2 h]

/-- A text with a period is cut at the first one. -/
theorem exists_parentEntity_eq {parent : String} (h : '.' ∈ parent.toList) (schema : String) :
    ∃ s t, parent = s ++ "." ++ t ∧ '.' ∉ s.toList ∧
      parentEntity schema parent = tableEntity (unquoted s) (unquoted t) := by
  cases hcut : Text.cut? "." parent with
  | none => exact absurd h ((Text.cut?_eq_none rfl).1 hcut)
  | some parts =>
    obtain ⟨hparent, hs⟩ := (Text.cut?_eq_some_iff rfl).1 hcut
    exact ⟨parts.1, parts.2, hparent, hs, by rw [parentEntity, hcut]⟩

theorem parentEntity_append {s : String} (hs : '.' ∉ s.toList) (schema t : String) :
    parentEntity schema (s ++ "." ++ t) = tableEntity (unquoted s) (unquoted t) := by
  rw [parentEntity, (Text.cut?_eq_some_iff rfl).2 ⟨rfl, hs⟩]

/-- A name without its schema. -/
theorem parentEntity_quoteName_iff {schema name : String} :
    parentEntity schema (quoteName keyword name) = tableEntity schema name ↔
      '"' ∉ name.toList ∧ '.' ∉ name.toList := by
  by_cases hperiod : '.' ∈ name.toList
  · refine iff_of_false (fun h => ?_) fun h => h.2 hperiod
    have hmem : '.' ∈ (quoteName keyword name).toList :=
      not_not.1 fun hnot => period_notMem_quoteName.1 hnot hperiod
    obtain ⟨s, t, hparent, -, hentity⟩ := exists_parentEntity_eq hmem schema
    rw [h, tableEntity_inj] at hentity
    -- one period of the name is gone
    have hcount : (quoteName keyword name).toList.count '.' = name.toList.count '.' :=
      count_quoteName (by decide) name
    have hle := count_unquoted_le '.' t
    have hmark : ".".toList.count '.' = 1 := by decide
    rw [← hentity.2] at hle
    rw [hparent, String.toList_append, String.toList_append, List.count_append, List.count_append,
      hmark] at hcount
    omega
  · rw [parentEntity_of_notMem (period_notMem_quoteName.2 hperiod), tableEntity_inj,
      unquoted_quoteName_iff]
    simp [hperiod]

/-- A name behind its schema. -/
theorem parentEntity_quoteName_append_iff {schema s name : String} :
    parentEntity schema (quoteName keyword s ++ "." ++ quoteName keyword name) =
        tableEntity s name ↔
      '"' ∉ s.toList ∧ '.' ∉ s.toList ∧ '"' ∉ name.toList := by
  by_cases hperiod : '.' ∈ s.toList
  · refine iff_of_false (fun h => ?_) fun h => h.2.1 hperiod
    have hmem : '.' ∈ (quoteName keyword s ++ "." ++ quoteName keyword name).toList := by simp
    obtain ⟨a, b, -, ha, hentity⟩ := exists_parentEntity_eq hmem schema
    rw [h, tableEntity_inj] at hentity
    exact ha ((isInfix_unquoted a).subset (hentity.1 ▸ hperiod))
  · rw [parentEntity_append (period_notMem_quoteName.2 hperiod), tableEntity_inj,
      unquoted_quoteName_iff, unquoted_quoteName_iff]
    simp [hperiod]

/-- A table is found again in what a server prints of it just if neither its name nor the schema in
front of it has a double quote, and no period stands in the first of them. -/
theorem parentEntity_printedTable_iff (keyword : String → Bool) (referring : String)
    (schema : Option String) (name : String) :
    parentEntity referring (printedTable keyword schema name) =
        tableEntity (schema.getD referring) name ↔
      (∀ n ∈ name :: schema.toList, '"' ∉ n.toList) ∧ '.' ∉ (schema.getD name).toList := by
  cases schema with
  | none => simp [printedTable, parentEntity_quoteName_iff]
  | some s =>
    have hnames : (∀ n ∈ [name, s], '"' ∉ n.toList) ↔ '"' ∉ name.toList ∧ '"' ∉ s.toList := by simp
    rw [printedTable, Option.getD_some, parentEntity_quoteName_append_iff, Option.getD_some,
      Option.toList_some, hnames]
    exact ⟨fun ⟨hs, hperiod, hname⟩ => ⟨⟨hname, hs⟩, hperiod⟩,
      fun ⟨⟨hname, hs⟩, hperiod⟩ => ⟨hs, hperiod, hname⟩⟩

/-- A table without a schema whose name has a period is taken for one of another schema. -/
theorem parentEntity_priceList :
    printedTable (fun _ => false) none "price.list" = "\"price.list\"" ∧
      parentEntity "public" "\"price.list\"" = tableEntity "price" "list" ∧
      tableEntity "price" "list" ≠ tableEntity "public" "price.list" := by
  decide

end Printed

end Atlas.Sql
