import Atlas.Proofs.Graph.Growth
import Atlas.Sql.Graph

/-!
# What the graph of a database holds

The graph is built in two passes. The first adds the schemas with what they contain. While it runs
nothing is dangling, and all but the schemas has its containment (`Filed`), so what was extracted
before can be told from the containments alone (`Filed.addContained`). The second adds the
references and inheritances, which all start at a table of the first pass. So each containment,
each reference and each inheritance is there once, in a fixed order, and the dangling entities are
the tables that are referenced or inherited from and not extracted (`showsDatabase`).
-/

set_option linter.unusedSectionVars false

namespace Atlas.Sql

open Atlas.Graph

/-! ## What a schema contains -/

/-- The tables, the views and the materialized views of a schema. -/
def Schema.contents (s : Schema) : List Entity :=
  s.tables.map (fun t => tableEntity s.name t.name) ++
    s.views.map (fun v => ⟨.view, v.name, some s.name⟩) ++
    s.materializedViews.map fun v => ⟨.materializedView, v.name, some s.name⟩

/-- The relation between a schema and what it contains. -/
def Schema.containment (s : Schema) (e : Entity) : Relation :=
  ⟨s.entity, e, .contains, none⟩

/-- The containments of a database, with those of what is repeated. -/
def Database.containments (db : Database) : List Relation :=
  db.schemas.flatMap fun s => s.contents.map s.containment

/-- The tables of a database. -/
def Database.tableEntities (db : Database) : List Entity :=
  db.schemas.flatMap fun s => s.tables.map fun t => tableEntity s.name t.name

theorem map_entity_entityNodes (s : Schema) : s.entityNodes.map (·.entity) = s.contents := by
  simp [Schema.entityNodes, Schema.contents, EntityNode.withDoc, Function.comp_def]

theorem dangling_of_mem_entityNodes {s : Schema} {n : EntityNode} (hn : n ∈ s.entityNodes) :
    n.dangling = false := by
  simp only [Schema.entityNodes, List.mem_append, List.mem_map] at hn
  rcases hn with (⟨_, -, rfl⟩ | ⟨_, -, rfl⟩) | ⟨_, -, rfl⟩ <;> rfl

theorem scope_of_mem_contents {s : Schema} {e : Entity} (he : e ∈ s.contents) :
    e.kind ≠ .schema ∧ e.scope = some s.name := by
  simp only [Schema.contents, List.mem_append, List.mem_map] at he
  rcases he with (⟨_, -, rfl⟩ | ⟨_, -, rfl⟩) | ⟨_, -, rfl⟩ <;> exact ⟨nofun, rfl⟩

/-- Of what a schema contains, its tables are what is a table. -/
theorem mem_contents_of_table {s : Schema} {schema name : String} :
    tableEntity schema name ∈ s.contents ↔
      tableEntity schema name ∈ s.tables.map fun t => tableEntity s.name t.name := by
  simp [Schema.contents, tableEntity]

theorem mem_containments {db : Database} {r : Relation} :
    r ∈ db.containments ↔ ∃ s ∈ db.schemas, ∃ e ∈ s.contents, s.containment e = r := by
  simp [Database.containments]

/-! ## The first pass -/

/-- A graph of schemas and their contents, after these containments. -/
structure Filed (g : Graph) (rs : List Relation) : Prop where
  wellFormed : g.WellFormed
  dangling : g.dangling = []
  relations : g.relations = firsts (·.target) rs
  /-- All but the schemas has its containment. -/
  contained : ∀ e, e.kind ≠ .schema → (e ∈ g.mentioned ↔ e ∈ rs.map (·.target))

namespace Filed

variable {g : Graph} {rs : List Relation}

theorem empty : Filed Graph.empty [] where
  wellFormed := wellFormed_empty
  dangling := rfl
  relations := rfl
  contained := by simp [mentioned, Graph.empty]

/-- A schema is extracted, if it was not before. -/
theorem addNew_schema (h : Filed g rs) {n : EntityNode} (hk : n.entity.kind = .schema)
    (hn : n.dangling = false) : Filed (g.addNew n) rs := by
  have hmem := h.wellFormed.mentioned_addNew n
  refine ⟨h.wellFormed.addNew n, ?_, ?_, fun e he => ?_⟩
  · exact h.wellFormed.dangling_addNew h.dangling hn
  · rw [h.wellFormed.relations_addNew, h.relations]
  · have hne : e ≠ n.entity := fun heq => he (heq ▸ hk)
    rw [hmem, mem_concatNew, or_iff_left hne]
    exact h.contained e he

/-- What is new in a schema is extracted and contained in it; all else is left as it is. -/
theorem addContained (h : Filed g rs) {s : Entity} (hs : s ∈ g.mentioned) {n : EntityNode}
    (hk : n.entity.kind ≠ .schema) (hn : n.dangling = false) :
    Filed (addContained s g n) (rs ++ [⟨s, n.entity, .contains, none⟩]) ∧
      (addContained s g n).mentioned = concatNew id g.mentioned n.entity := by
  have hrs : n.entity ∈ g.mentioned ↔ n.entity ∈ rs.map (·.target) := h.contained _ hk
  have hfirsts := firsts_concat (·.target) rs (⟨s, n.entity, .contains, none⟩ : Relation)
  rcases h.wellFormed.add_cases_of_dangling h.dangling n with ⟨hnew, ha⟩ | ⟨hold, ha⟩
  · have hadd : Sql.addContained s g n = (g.push n).relate ⟨s, n.entity, .contains, none⟩ := by
      rw [Sql.addContained, ha]
    have hpush : (g.push n).WellFormed := h.wellFormed.push (h.wellFormed.index?_eq_none.2 hnew)
    have hext := h.wellFormed.extends_push (h.wellFormed.index?_eq_none.2 hnew)
    have hment := WellFormed.mentioned_push g n
    have hnodes : ((g.push n).relate ⟨s, n.entity, .contains, none⟩).nodes = (g.push n).nodes :=
      hpush.nodes_relate (hext.mentioned.subset hs) (by simp [hment])
    have hmentioned : ((g.push n).relate ⟨s, n.entity, .contains, none⟩).mentioned =
        g.mentioned ++ [n.entity] := by
      rw [← hment, mentioned, mentioned, hnodes]
    rw [hadd]
    refine ⟨⟨hpush.relate _, ?_, ?_, fun e he => ?_⟩, ?_⟩
    · rw [Graph.dangling, hnodes]
      exact WellFormed.dangling_push h.dangling hn
    · rw [hpush.relations_relate, h.wellFormed.relations_eq hext.mentioned rfl, h.relations,
        hfirsts, if_neg fun hm => hnew (hrs.2 hm)]
    · rw [hmentioned, List.mem_append, h.contained e he]
      simp
    · rw [hmentioned, concatNew, List.map_id, id, if_neg hnew]
  · have hadd : Sql.addContained s g n = g := by rw [Sql.addContained, ha]
    rw [hadd]
    refine ⟨⟨h.wellFormed, h.dangling, ?_, fun e he => ?_⟩, ?_⟩
    · rw [hfirsts, if_pos (hrs.1 hold), List.append_nil]
      exact h.relations
    · rw [h.contained e he, List.map_append, List.mem_append, or_iff_left_of_imp]
      intro hlast
      rw [List.map_singleton, List.mem_singleton] at hlast
      exact hlast ▸ hrs.1 hold
    · rw [concatNew, List.map_id, id, if_pos hold]

theorem foldl_addContained (h : Filed g rs) {s : Entity} (hs : s ∈ g.mentioned)
    (ns : List EntityNode) (hns : ∀ n ∈ ns, n.entity.kind ≠ .schema ∧ n.dangling = false) :
    Filed (ns.foldl (Sql.addContained s) g)
        (rs ++ (ns.map (·.entity)).map fun e => ⟨s, e, .contains, none⟩) ∧
      (ns.foldl (Sql.addContained s) g).mentioned =
        (ns.map (·.entity)).foldl (concatNew id) g.mentioned := by
  induction ns generalizing g rs with
  | nil => exact ⟨by rwa [List.map_nil, List.map_nil, List.append_nil], rfl⟩
  | cons n ns ih =>
    obtain ⟨⟨hk, hn⟩, hns⟩ := List.forall_mem_cons.1 hns
    obtain ⟨hstep, hment⟩ := h.addContained hs hk hn
    have hs' : s ∈ (Sql.addContained s g n).mentioned := hment ▸ mem_concatNew.2 (Or.inl hs)
    obtain ⟨hall, hments⟩ := ih hstep hs' hns
    rw [List.append_assoc, List.singleton_append] at hall
    rw [hment] at hments
    exact ⟨hall, hments⟩

theorem addSchema (h : Filed g rs) (s : Schema) :
    Filed (addSchema g s) (rs ++ s.contents.map s.containment) ∧
      (addSchema g s).mentioned = (s.entity :: s.contents).foldl (concatNew id) g.mentioned := by
  have hment := h.wellFormed.mentioned_addNew { entity := s.entity }
  have hs : s.entity ∈ (g.addNew { entity := s.entity }).mentioned :=
    hment ▸ mem_concatNew.2 (Or.inr rfl)
  have hnew : Filed (g.addNew { entity := s.entity }) rs := h.addNew_schema rfl rfl
  have hall := hnew.foldl_addContained hs s.entityNodes fun n hn => by
    have hmem : n.entity ∈ s.contents := map_entity_entityNodes s ▸ List.mem_map_of_mem hn
    exact ⟨(scope_of_mem_contents hmem).1, dangling_of_mem_entityNodes hn⟩
  rw [map_entity_entityNodes, hment] at hall
  exact hall

theorem foldl_addSchema (h : Filed g rs) (ss : List Schema) :
    Filed (ss.foldl Sql.addSchema g) (rs ++ ss.flatMap fun s => s.contents.map s.containment) ∧
      (ss.foldl Sql.addSchema g).mentioned =
        (ss.flatMap fun s => s.entity :: s.contents).foldl (concatNew id) g.mentioned := by
  induction ss generalizing g rs with
  | nil => exact ⟨by rwa [List.flatMap_nil, List.append_nil], rfl⟩
  | cons s ss ih =>
    obtain ⟨hstep, hment⟩ := h.addSchema s
    obtain ⟨hall, hments⟩ := ih hstep
    rw [hment] at hments
    rw [List.flatMap_cons, List.flatMap_cons, List.foldl_append, ← List.append_assoc]
    exact ⟨hall, hments⟩

end Filed

/-! ## The second pass -/

/-- What the tables of a database reference and inherit from, each table's references before its
parents. -/
def Database.dependencies (db : Database) : List Relation :=
  db.schemas.flatMap fun s => s.tables.flatMap fun t =>
    t.foreignKeys.map (fun k => ⟨tableEntity s.name t.name, tableEntity k.schema k.table,
        .references, some k.onDelete.words⟩) ++
      t.inherits.map fun p => ⟨tableEntity s.name t.name, parentEntity s.name p, .inherits, none⟩

theorem relations_eq_dependencies (db : Database) : db.relations = db.dependencies :=
  rfl

theorem mem_dependencies {db : Database} {r : Relation} :
    r ∈ db.dependencies ↔ ∃ s ∈ db.schemas, ∃ t ∈ s.tables,
      (∃ k ∈ t.foreignKeys, ⟨tableEntity s.name t.name, tableEntity k.schema k.table, .references,
        some k.onDelete.words⟩ = r) ∨
      ∃ p ∈ t.inherits, ⟨tableEntity s.name t.name, parentEntity s.name p, .inherits, none⟩ = r := by
  simp [Database.dependencies]

theorem exists_parentEntity (schema parent : String) :
    ∃ s t, parentEntity schema parent = tableEntity s t := by
  rw [parentEntity]
  split <;> exact ⟨_, _, rfl⟩

theorem tableEntity_mem_containments {db : Database} {schema name : String} :
    tableEntity schema name ∈ db.containments.map (·.target) ↔
      tableEntity schema name ∈ db.tableEntities := by
  simp [Database.containments, Database.tableEntities, Schema.containment, mem_contents_of_table]

section Dependency

variable {db : Database} {r : Relation} (hr : r ∈ db.dependencies)

include hr

theorem source_mem_tableEntities : r.source ∈ db.tableEntities := by
  obtain ⟨s, hs, t, ht, ⟨k, -, rfl⟩ | ⟨p, -, rfl⟩⟩ := mem_dependencies.1 hr
  all_goals exact List.mem_flatMap.2 ⟨s, hs, List.mem_map.2 ⟨t, ht, rfl⟩⟩

theorem exists_target_eq : ∃ schema name, r.target = tableEntity schema name := by
  obtain ⟨s, -, t, -, ⟨k, -, rfl⟩ | ⟨p, -, rfl⟩⟩ := mem_dependencies.1 hr
  · exact ⟨_, _, rfl⟩
  · exact exists_parentEntity s.name p

end Dependency

/-! ## The graph -/

theorem relations_graph (db : Database) :
    db.graph.relations = firsts (·.target) db.containments ++ db.dependencies := by
  have h := (Filed.empty.foldl_addSchema db.schemas).1
  rw [Database.graph, h.wellFormed.relations_foldl_relate, h.relations, relations_eq_dependencies]
  rfl

theorem wellFormed_graph (db : Database) : db.graph.WellFormed :=
  (Filed.empty.foldl_addSchema db.schemas).1.wellFormed.foldl_relate _

/-- Every entity of the first pass is extracted, and no other. -/
theorem entities_graph (db : Database) : db.graph.entities.map (·.entity) =
    firsts id (db.schemas.flatMap fun s => s.entity :: s.contents) := by
  obtain ⟨h, hment⟩ := Filed.empty.foldl_addSchema db.schemas
  rw [Database.graph, WellFormed.entities_foldl_relate, WellFormed.map_entity_entities h.dangling,
    hment]
  exact foldl_concatNew id _

theorem mem_dangling_graph {db : Database} {e : Entity} :
    e ∈ db.graph.dangling ↔ (∃ r ∈ db.dependencies, r.target = e) ∧ e ∉ db.tableEntities := by
  have h := (Filed.empty.foldl_addSchema db.schemas).1
  have htable {schema name : String} : tableEntity schema name ∈
      (db.schemas.foldl addSchema Graph.empty).mentioned ↔
        tableEntity schema name ∈ db.tableEntities :=
    (h.contained _ (by simp [tableEntity])).trans tableEntity_mem_containments
  have hsource {r : Relation} (hr : r ∈ db.dependencies) :
      r.source ∈ (db.schemas.foldl addSchema Graph.empty).mentioned := by
    have hmem := source_mem_tableEntities hr
    obtain ⟨s, -, hs⟩ := List.mem_flatMap.1 hmem
    obtain ⟨t, -, heq⟩ := List.mem_map.1 hs
    rw [← heq] at hmem ⊢
    exact htable.2 hmem
  rw [Database.graph, h.wellFormed.mem_dangling_foldl_relate, h.dangling, relations_eq_dependencies]
  constructor
  · rintro (he | ⟨⟨r, hr, rfl | rfl⟩, he⟩)
    · exact absurd he List.not_mem_nil
    · exact absurd (hsource hr) he
    · obtain ⟨schema, name, heq⟩ := exists_target_eq hr
      refine ⟨⟨r, hr, rfl⟩, ?_⟩
      rw [heq] at he ⊢
      exact fun hmem => he (htable.2 hmem)
  · rintro ⟨⟨r, hr, rfl⟩, he⟩
    obtain ⟨schema, name, heq⟩ := exists_target_eq hr
    refine Or.inr ⟨⟨r, hr, Or.inr rfl⟩, ?_⟩
    rw [heq] at he ⊢
    exact fun hmem => he (htable.1 hmem)

/-- What is contained in a schema has one containment, in that schema. -/
theorem filter_containments {db : Database} {s : Schema} (hs : s ∈ db.schemas) {e : Entity}
    (he : e ∈ s.contents) :
    (firsts (·.target) db.containments).filter (·.target = e) = [s.containment e] := by
  rw [filter_firsts]
  cases hfind : db.containments.find? (·.target = e) with
  | none =>
    have hmem : s.containment e ∈ db.containments := mem_containments.2 ⟨s, hs, e, he, rfl⟩
    exact absurd (decide_eq_true rfl) (List.find?_eq_none.1 hfind _ hmem)
  | some r =>
    obtain ⟨s', -, e', he', rfl⟩ := mem_containments.1 (List.mem_of_find?_eq_some hfind)
    have htarget : e' = e := of_decide_eq_true (List.find?_some hfind :)
    subst htarget
    have hscope := (scope_of_mem_contents he').2.symm.trans (scope_of_mem_contents he).2
    have hname : s'.name = s.name := Option.some.inj hscope
    rw [Schema.containment, Schema.containment, Schema.entity, Schema.entity, hname]
    rfl

/-- What the graph of a database holds. -/
structure ShowsDatabase (db : Database) (g : Graph) : Prop where
  /-- The schemas, each with what it contains, are extracted, once where they are repeated. -/
  entities : g.entities.map (·.entity) =
    firsts id (db.schemas.flatMap fun s => s.entity :: s.contents)
  /-- The relations are the containments, of which those of one thing count once, and then the
  foreign keys and the parents of each table. -/
  relations : g.relations = firsts (·.target) db.containments ++ db.dependencies
  contained : ∀ s ∈ db.schemas, ∀ e ∈ s.contents,
    (g.relationsOfKind .contains).filter (·.target = e) = [s.containment e]
  sources : ∀ r ∈ g.relations, r.source ∉ g.dangling
  /-- The dangling entities are the tables that a key or a parent refers to and no schema has. -/
  dangling : ∀ e, e ∈ g.dangling ↔ (∃ r ∈ db.dependencies, r.target = e) ∧ e ∉ db.tableEntities
  nodup : g.dangling.Nodup

/-- The graph of a database has each thing that a schema contains with one containment, each foreign
key and each parent as one relation, in their order, and for dangling entities just the tables that
these refer to and no schema has. -/
theorem showsDatabase (db : Database) : ShowsDatabase db db.graph where
  entities := entities_graph db
  relations := relations_graph db
  contained s hs e he := by
    have hrest : db.dependencies.filter (·.kind = .contains) = [] := by
      refine List.filter_eq_nil_iff.2 fun r hr hk => ?_
      obtain ⟨s, -, t, -, ⟨k, -, rfl⟩ | ⟨p, -, rfl⟩⟩ := mem_dependencies.1 hr
      all_goals exact absurd (of_decide_eq_true hk) nofun
    have hall : (firsts (·.target) db.containments).filter (·.kind = .contains) =
        firsts (·.target) db.containments := by
      refine List.filter_eq_self.2 fun r hr => ?_
      obtain ⟨s, -, e, -, rfl⟩ := mem_containments.1 ((firsts_sublist _ _).subset hr)
      exact decide_eq_true rfl
    rw [relationsOfKind, relations_graph, List.filter_append, hrest, hall, List.append_nil]
    exact filter_containments hs he
  sources r hr hdangling := by
    rw [relations_graph, List.mem_append] at hr
    rcases hr with hr | hr
    · obtain ⟨s, -, e, -, rfl⟩ := mem_containments.1 ((firsts_sublist _ _).subset hr)
      obtain ⟨⟨r, hr, htarget⟩, -⟩ := mem_dangling_graph.1 hdangling
      obtain ⟨schema, name, heq⟩ := exists_target_eq hr
      rw [heq] at htarget
      cases congrArg Entity.kind htarget
    · exact (mem_dangling_graph.1 hdangling).2 (source_mem_tableEntities hr)
  dangling _ := mem_dangling_graph
  nodup := (wellFormed_graph db).indexed.nodup.sublist (List.filter_sublist.map _)

end Atlas.Sql
