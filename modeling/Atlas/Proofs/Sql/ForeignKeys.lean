import Atlas.Proofs.Sql.Diagram

/-!
# Foreign keys in the diagram of a database

Identifiers are given out while the diagram is drawn, first to the nodes and then to the ends of the
edges, some of which have no node. A key keeps its identifier (`Identifiers.Continues`) and shares
it with no other (`Identifiers.Reached.key_inj`), so both ends of an edge, be it of a foreign key or
of a parent, can be read off the identifiers that are left at the end (`identifiers_of_diagram`).
Where the relations of a database can be told apart by schema and name, the edge of each foreign key
then joins the nodes of its relations (`showsKeys`). What the names look like as identifiers does
not matter for this, only that the character between schema and name is in neither.
-/

namespace Atlas.Sql

open PlantUml Identifiers

/-! ## Relations -/

/-- The key of a relation of a schema. -/
def relationKey (schema name : String) : String :=
  schema ++ "\x00" ++ name

/-- Names without the separator can be told from their key. -/
theorem relationKey_inj {schema name schema' name' : String} (hschema : '\x00' ∉ schema.toList)
    (hname : '\x00' ∉ name.toList) (h : relationKey schema name = relationKey schema' name') :
    schema = schema' ∧ name = name' := by
  have hlist : schema.toList ++ '\x00' :: name.toList =
      schema'.toList ++ '\x00' :: name'.toList := by
    simpa [relationKey] using congrArg String.toList h
  obtain ⟨hs, -, hn⟩ := (List.append_cons_inj_of_notMem hschema hname).1 hlist
  exact ⟨String.toList_inj.1 hs, String.toList_inj.1 hn⟩

theorem relationId_spec {ids : Identifiers} (h : Reached ids) (schema name : String) :
    (relationId ids schema name).2.lookup? (relationKey schema name) =
        some (relationId ids schema name).1 ∧
      Continues ids (relationId ids schema name).2 :=
  ⟨lookup?_idFor _ _ _, (h.idFor _ _).2⟩

/-! ## Parts of what is drawn -/

section Parts

variable {α : Type} {p : α → Prop} [DecidablePred p] {as bs : List α}

theorem filter_eq_nil_of_forall_not (h : ∀ a ∈ as, ¬p a) : as.filter (p ·) = [] :=
  List.filter_eq_nil_iff.2 fun a ha hd => h a ha (of_decide_eq_true hd)

theorem filter_eq_self_of_forall (h : ∀ a ∈ as, p a) : as.filter (p ·) = as :=
  List.filter_eq_self.2 fun a ha => decide_eq_true (h a ha)

theorem filter_append_left (h : ∀ a ∈ as, p a) (h' : ∀ b ∈ bs, ¬p b) :
    (as ++ bs).filter (p ·) = as := by
  rw [List.filter_append, filter_eq_self_of_forall h, filter_eq_nil_of_forall_not h',
    List.append_nil]

theorem filter_append_right (h : ∀ a ∈ as, ¬p a) (h' : ∀ b ∈ bs, p b) :
    (as ++ bs).filter (p ·) = bs := by
  rw [List.filter_append, filter_eq_nil_of_forall_not h, filter_eq_self_of_forall h',
    List.nil_append]

end Parts

/-! ## Nodes -/

/-- A node that stands for a relation, named by its schema and its name. -/
structure StandsFor (ids : Identifiers) (r : String × String) (n : Node) : Prop where
  label : n.label = r.2
  id : ids.lookup? (relationKey r.1 r.2) = some n.id

theorem StandsFor.mono {ids ids' : Identifiers} {r : String × String} {n : Node}
    (hids : Continues ids ids') (h : StandsFor ids r n) : StandsFor ids' r n :=
  ⟨h.label, hids.kept h.id⟩

theorem shape_drawTable (ids : Identifiers) (t : Table) :
    (drawTable ids t).1.shape = .entity := by
  simp [drawTable, Table.node]

theorem shape_drawView (schema stereotype : String) (ids : Identifiers) (v : View) :
    (drawView schema stereotype ids v).1.shape = .classBox := by
  simp [drawView, View.node]

theorem standsFor_table (ids : Identifiers) (t : Table) (h : Reached ids) :
    StandsFor (drawTable ids t).2 (t.schema, t.name) (drawTable ids t).1 ∧
      Continues ids (drawTable ids t).2 := by
  refine (relationId_spec h t.schema t.name).imp_left fun hid => ⟨?_, ?_⟩
  · simp [drawTable, Table.node]
  · simpa [drawTable, Table.node] using hid

theorem standsFor_view (schema stereotype : String) (ids : Identifiers) (v : View)
    (h : Reached ids) :
    StandsFor (drawView schema stereotype ids v).2 (schema, v.name)
        (drawView schema stereotype ids v).1 ∧
      Continues ids (drawView schema stereotype ids v).2 := by
  refine (relationId_spec h schema v.name).imp_left fun hid => ⟨?_, ?_⟩
  · simp [drawView, View.node]
  · simpa [drawView, View.node] using hid

/-- The names of the relations of a schema, in the order in which they are drawn. -/
def Schema.relationNames (s : Schema) : List String :=
  s.tables.map (·.name) ++ s.views.map (·.name) ++ s.materializedViews.map (·.name)

/-- The relations of a schema by their own schema and name, which is for a table what it says. -/
def Schema.drawnRelations (s : Schema) : List (String × String) :=
  s.tables.map (fun t => (t.schema, t.name)) ++ s.views.map (fun v => (s.name, v.name)) ++
    s.materializedViews.map fun v => (s.name, v.name)

theorem Schema.drawnRelations_eq {s : Schema} (h : ∀ t ∈ s.tables, t.schema = s.name) :
    s.drawnRelations = s.relationNames.map (s.name, ·) := by
  have htables : s.tables.map (fun t => (t.schema, t.name)) =
      s.tables.map fun t => (s.name, t.name) :=
    List.map_congr_left fun t ht => by rw [h t ht]
  simp [drawnRelations, relationNames, htables, Function.comp_def]

/-- The nodes of tables. -/
def tableNodes (ns : List Node) : List Node :=
  ns.filter (·.shape = .entity)

/-- The container of a schema has a node for each of its relations. -/
structure Contains (ids : Identifiers) (s : Schema) (c : Container) : Prop where
  name : c.name = s.name
  nodes : List.Forall₂ (StandsFor ids) s.drawnRelations c.nodes
  tables : List.Forall₂ (fun t n => StandsFor ids (t.schema, t.name) n) s.tables
    (tableNodes c.nodes)

theorem Contains.mono {ids ids' : Identifiers} {s : Schema} {c : Container}
    (hids : Continues ids ids') (h : Contains ids s c) : Contains ids' s c :=
  ⟨h.name, h.nodes.imp fun _ _ hn => hn.mono hids, h.tables.imp fun _ _ hn => hn.mono hids⟩

theorem contains_schema (ids : Identifiers) (s : Schema) (h : Reached ids) :
    Contains (drawSchema ids s).2 s (drawSchema ids s).1 ∧ Continues ids (drawSchema ids s).2 := by
  obtain ⟨htables, h⟩ := drawEach_spec
    (R := fun ids t n => StandsFor ids (t.schema, t.name) n) StandsFor.mono standsFor_table h
    s.tables
  obtain ⟨hviews, h'⟩ := drawEach_spec
    (R := fun ids v n => StandsFor ids (s.name, v.name) n) StandsFor.mono
    (standsFor_view s.name "view") h.reached s.views
  obtain ⟨hmaterialized, h''⟩ := drawEach_spec
    (R := fun ids v n => StandsFor ids (s.name, v.name) n) StandsFor.mono
    (standsFor_view s.name "materialized") h'.reached s.materializedViews
  replace htables := htables.imp fun _ _ hn => hn.mono (h'.trans h'')
  refine ⟨⟨rfl, ?_, ?_⟩, (h.trans h').trans h''⟩
  · refine List.rel_append (List.rel_append ?_ ?_) ?_
    · exact List.forall₂_map_left_iff.2 htables
    · exact List.forall₂_map_left_iff.2 (hviews.imp fun _ _ hn => hn.mono h'')
    · exact List.forall₂_map_left_iff.2 hmaterialized
  · have hshape {stereotype : String} {ids : Identifiers} {vs : List View} :
        ∀ n ∈ (drawEach (drawView s.name stereotype) ids vs).1, n.shape ≠ .entity :=
      forall_mem_drawEach (fun ids v => by rw [shape_drawView]; decide) ids vs
    have hnodes : (drawSchema ids s).1.nodes = (drawEach drawTable ids s.tables).1 ++ (_ ++ _) :=
      List.append_assoc _ _ _
    rw [hnodes, tableNodes, filter_append_left (forall_mem_drawEach shape_drawTable ids s.tables)
      fun n hn => (List.mem_append.1 hn).elim (hshape n) (hshape n)]
    exact htables

/-! ## Edges -/

/-- An edge from a given end to the identifier of a relation, given by schema and name. -/
structure LeadsTo (arrow source : String) (ids : Identifiers) (target : String × String)
    (e : Edge) : Prop where
  arrow : e.arrow = arrow
  source : e.source = source
  target : ids.lookup? (relationKey target.1 target.2) = some e.target

theorem LeadsTo.mono {arrow source : String} {ids ids' : Identifiers} {target : String × String}
    {e : Edge} (hids : Continues ids ids') (h : LeadsTo arrow source ids target e) :
    LeadsTo arrow source ids' target e :=
  ⟨h.arrow, h.source, hids.kept h.target⟩

theorem leadsTo_key (source : String) (ids : Identifiers) (k : ForeignKey) (h : Reached ids) :
    LeadsTo "--" source (drawKey source ids k).2 (k.schema, k.table) (drawKey source ids k).1 ∧
      Continues ids (drawKey source ids k).2 :=
  (relationId_spec h k.schema k.table).imp_left fun htarget => ⟨rfl, rfl, htarget⟩

theorem arrow_of_leadsTo {α : Type} {arrow source : String} {ids : Identifiers}
    (target : α → String × String) {as : List α} {es : List Edge}
    (h : List.Forall₂ (fun a e => LeadsTo arrow source ids (target a) e) as es) :
    ∀ e ∈ es, e.arrow = arrow := by
  intro e he
  obtain ⟨a, -, ha⟩ := exists_of_mem_right h he
  exact ha.arrow

/-- The schema and name that a parent is drawn with, as a table of the schema names it. -/
def drawnParent (schema parent : String) : String × String :=
  (Text.cut? "." parent).getD (schema, parent)

theorem leadsTo_parent (schema source : String) (ids : Identifiers) (parent : String)
    (h : Reached ids) :
    LeadsTo "--|>" source (drawParent schema source ids parent).2 (drawnParent schema parent)
        (drawParent schema source ids parent).1 ∧
      Continues ids (drawParent schema source ids parent).2 :=
  (relationId_spec h _ _).imp_left fun htarget => ⟨rfl, rfl, htarget⟩

/-- The edges that are drawn for foreign keys. -/
def keyEdges (es : List Edge) : List Edge :=
  es.filter (·.arrow = "--")

/-- The edges that are drawn for parents. -/
def parentEdges (es : List Edge) : List Edge :=
  es.filter (·.arrow = "--|>")

/-- An edge between the identifiers of two relations, given by schema and name. -/
structure Links (ids : Identifiers) (source target : String × String) (e : Edge) : Prop where
  source : ids.lookup? (relationKey source.1 source.2) = some e.source
  target : ids.lookup? (relationKey target.1 target.2) = some e.target

theorem Links.mono {ids ids' : Identifiers} {source target : String × String} {e : Edge}
    (hids : Continues ids ids') (h : Links ids source target e) : Links ids' source target e :=
  ⟨hids.kept h.source, hids.kept h.target⟩

/-- The edge of a foreign key of a table, between the identifiers of the table and of the relation
that the key refers to. -/
def LinksKey (ids : Identifiers) (t : Table) (k : ForeignKey) : Edge → Prop :=
  Links ids (t.schema, t.name) (k.schema, k.table)

/-- The edge of a parent of a table, between the identifiers of the table and of what the parent is
drawn with. -/
def LinksParent (ids : Identifiers) (t : Table) (parent : String) : Edge → Prop :=
  Links ids (t.schema, t.name) (drawnParent t.schema parent)

/-- The edges of a table: one for each of its foreign keys and one for each of its parents, each in
their order. -/
structure LinksTable (ids : Identifiers) (t : Table) (es : List Edge) : Prop where
  keys : List.Forall₂ (LinksKey ids t) t.foreignKeys (keyEdges es)
  parents : List.Forall₂ (LinksParent ids t) t.inherits (parentEdges es)

theorem LinksTable.mono {ids ids' : Identifiers} {t : Table} {es : List Edge}
    (hids : Continues ids ids') (h : LinksTable ids t es) : LinksTable ids' t es :=
  ⟨h.keys.imp fun _ _ he => he.mono hids, h.parents.imp fun _ _ he => he.mono hids⟩

theorem links_table (ids : Identifiers) (t : Table) (h : Reached ids) :
    LinksTable (drawEdges ids t).2 t (drawEdges ids t).1 ∧ Continues ids (drawEdges ids t).2 := by
  obtain ⟨hsource, h⟩ := relationId_spec h t.schema t.name
  obtain ⟨hkeys, h'⟩ := drawEach_spec
    (R := fun ids' k e =>
      LeadsTo "--" (relationId ids t.schema t.name).1 ids' (k.schema, k.table) e)
    LeadsTo.mono (leadsTo_key _) h.reached t.foreignKeys
  obtain ⟨hparents, h''⟩ := drawEach_spec
    (R := fun ids' p e =>
      LeadsTo "--|>" (relationId ids t.schema t.name).1 ids' (drawnParent t.schema p) e)
    LeadsTo.mono (leadsTo_parent t.schema _) h'.reached t.inherits
  have hkeyArrows := arrow_of_leadsTo (fun k : ForeignKey => (k.schema, k.table)) hkeys
  have hparentArrows := arrow_of_leadsTo (drawnParent t.schema) hparents
  have hkeyEdges : keyEdges (drawEdges ids t).1 = _ :=
    filter_append_left hkeyArrows fun e he => by simp [hparentArrows e he]
  have hparentEdges : parentEdges (drawEdges ids t).1 = _ :=
    filter_append_right (fun e he => by simp [hkeyArrows e he]) hparentArrows
  have hid := h''.kept (h'.kept hsource)
  refine ⟨⟨?_, ?_⟩, (h.trans h').trans h''⟩
  · rw [hkeyEdges]
    exact hkeys.imp fun k e hk => ⟨hk.source ▸ hid, h''.kept hk.target⟩
  · rw [hparentEdges]
    exact hparents.imp fun p e hp => ⟨hp.source ▸ hid, hp.target⟩

/-! ## Diagrams -/

/-- The nodes of a diagram, each with the name of its container. -/
def placed (d : Diagram) : List (String × Node) :=
  d.containers.flatMap fun c => c.nodes.map (c.name, ·)

/-- The foreign keys of a database, each with its table, in the order of the schemas, of their
tables and of the tables' keys. -/
def Database.foreignKeys (db : Database) : List (Table × ForeignKey) :=
  db.tables.flatMap fun t => t.foreignKeys.map (t, ·)

/-- The parents of the tables of a database, each with its table, in the same order. -/
def Database.inheritances (db : Database) : List (Table × String) :=
  db.tables.flatMap fun t => t.inherits.map (t, ·)

/-- Identifiers in which every node of a diagram and every end of an edge is known. -/
theorem identifiers_of_diagram (db : Database) : ∃ ids containers, Reached ids ∧
    List.Forall₂ (Contains ids) db.schemas containers ∧
    placed db.diagram = containers.flatMap (fun c => c.nodes.map (c.name, ·)) ∧
    List.Forall₂ (fun r => LinksKey ids r.1 r.2) db.foreignKeys (keyEdges db.diagram.edges) ∧
    List.Forall₂ (fun r => LinksParent ids r.1 r.2) db.inheritances
      (parentEdges db.diagram.edges) := by
  obtain ⟨hcontainers, h⟩ := drawEach_spec (R := Contains) Contains.mono contains_schema
    reached_empty db.schemas
  obtain ⟨htables, h'⟩ := drawEach_spec (R := LinksTable) LinksTable.mono links_table h.reached
    db.tables
  have hdiagram : db.diagram = _ := foldl_addContainer _ _
  -- The edges come after the nodes, so the nodes keep their identifiers.
  refine ⟨_, _, h'.reached, hcontainers.imp fun _ _ hc => hc.mono h', ?_, ?_, ?_⟩
  · have hnone : ∀ c : Container, c.nodes = [] → c.nodes.map (c.name, ·) = [] := by
      intro c hc
      rw [hc, List.map_nil]
    rw [placed, hdiagram, List.nil_append, flatMap_filter_isEmpty _ hnone]
  · rw [hdiagram, keyEdges, List.filter_flatten]
    exact List.rel_flatMap htables fun t es hes => List.forall₂_map_left_iff.2 hes.keys
  · rw [hdiagram, parentEdges, List.filter_flatten]
    exact List.rel_flatMap htables fun t es hes => List.forall₂_map_left_iff.2 hes.parents

/-! ## Databases whose relations can be told apart -/

/-- The schemas and names of the relations of a database, in the order in which they are drawn. -/
def Database.qualifiedNames (db : Database) : List (String × String) :=
  db.schemas.flatMap fun s => s.relationNames.map (s.name, ·)

/-- A database whose relations can be told apart by schema and name. -/
structure WellNamed (db : Database) : Prop where
  schemas : (db.schemas.map (·.name)).Nodup
  relations : ∀ s ∈ db.schemas, s.relationNames.Nodup
  tables : ∀ s ∈ db.schemas, ∀ t ∈ s.tables, t.schema = s.name
  separator : ∀ r ∈ db.qualifiedNames, '\x00' ∉ r.1.toList ∧ '\x00' ∉ r.2.toList

/-- The name of the container of a node, and the node's own. -/
def relationOf (p : String × Node) : String × String :=
  (p.1, p.2.label)

/-- Identifiers under which a diagram has the nodes of its relations and the edges of its keys. -/
structure Identifies (ids : Identifiers) (db : Database) : Prop where
  reached : Reached ids
  names : (placed db.diagram).map relationOf = db.qualifiedNames
  nodes : ∀ p ∈ placed db.diagram, ids.lookup? (relationKey p.1 p.2.label) = some p.2.id
  edges : List.Forall₂ (fun r => LinksKey ids r.1 r.2) db.foreignKeys
    (keyEdges db.diagram.edges)

section Apart

variable {db : Database} (h : WellNamed db)

include h

theorem nodup_qualifiedNames : db.qualifiedNames.Nodup := by
  refine List.nodup_flatMap.2 ⟨fun s hs => ?_, ?_⟩
  · have hinj : Function.Injective fun name : String => (s.name, name) := by
      intro a b hab
      exact (Prod.mk.inj hab).2
    exact (h.relations s hs).map hinj
  · refine (List.pairwise_map.1 h.schemas).imp fun {s s'} hne => ?_
    intro r hr hr'
    obtain ⟨_, -, rfl⟩ := List.mem_map.1 hr
    obtain ⟨_, -, heq⟩ := List.mem_map.1 hr'
    exact hne (Prod.mk.inj heq).1.symm

theorem mem_qualifiedNames {t : Table} (ht : t ∈ db.tables) :
    (t.schema, t.name) ∈ db.qualifiedNames := by
  obtain ⟨s, hs, hts⟩ := List.mem_flatMap.1 ht
  have hname : t.name ∈ s.relationNames := by
    simp only [Schema.relationNames, List.mem_append, List.mem_map]
    exact .inl (.inl ⟨t, hts, rfl⟩)
  rw [h.tables s hs t hts]
  exact List.mem_flatMap.2 ⟨s, hs, List.mem_map_of_mem hname⟩

theorem exists_identifies : ∃ ids, Identifies ids db := by
  obtain ⟨ids, containers, hids, hcontainers, hplaced, hedges, -⟩ := identifiers_of_diagram db
  have hnodes : List.Forall₂
      (fun r p => relationOf p = r ∧ ids.lookup? (relationKey p.1 p.2.label) = some p.2.id)
      db.qualifiedNames (placed db.diagram) := by
    rw [hplaced]
    refine List.rel_flatMap ((List.forall₂_and_left _ _).2 ⟨h.tables, hcontainers⟩) ?_
    rintro s c ⟨htables, hc⟩
    have hdrawn := hc.nodes
    rw [Schema.drawnRelations_eq htables, List.forall₂_map_left_iff] at hdrawn
    rw [List.forall₂_map_left_iff, List.forall₂_map_right_iff, hc.name]
    refine hdrawn.imp fun name n hn => ⟨congrArg _ hn.label, ?_⟩
    rw [hn.label]
    exact hn.id
  refine ⟨ids, hids, ?_, fun p hp => ?_, hedges⟩
  · have hmap := List.forall₂_map_right_iff.2 (hnodes.imp fun r p hp => hp.1.symm)
    rw [List.forall₂_eq_eq_eq] at hmap
    exact hmap.symm
  · obtain ⟨_, -, -, hid⟩ := exists_of_mem_right hnodes hp
    exact hid

end Apart

namespace Identifies

variable {ids : Identifiers} {db : Database} (hids : Identifies ids db)

include hids

/-- A relation has a node. -/
theorem exists_node {r : String × String} (hr : r ∈ db.qualifiedNames) {id : String}
    (hid : ids.lookup? (relationKey r.1 r.2) = some id) :
    ∃ n, (r.1, n) ∈ placed db.diagram ∧ n.label = r.2 ∧ n.id = id := by
  rw [← hids.names] at hr
  obtain ⟨⟨schema, n⟩, hn, rfl⟩ := List.mem_map.1 hr
  refine ⟨n, hn, rfl, ?_⟩
  have hnode := hids.nodes _ hn
  exact Option.some.inj (hnode.symm.trans hid)

/-- The identifier of a node belongs to its relation alone. -/
theorem relationOf_eq (h : WellNamed db) {p : String × Node} (hp : p ∈ placed db.diagram)
    {schema name : String} (hid : ids.lookup? (relationKey schema name) = some p.2.id) :
    relationOf p = (schema, name) := by
  have hr : relationOf p ∈ db.qualifiedNames := hids.names ▸ List.mem_map_of_mem hp
  have hkey := hids.reached.key_inj (hids.nodes p hp) hid
  obtain ⟨hschema, hname⟩ := h.separator _ hr
  obtain ⟨rfl, rfl⟩ := relationKey_inj hschema hname hkey
  rfl

end Identifies

/-! ## Keys -/

/-- The edge of a foreign key starts at the node of its table. It ends at the node of the relation
that the key refers to, or at no node if there is no such relation. -/
structure Joins (db : Database) (t : Table) (k : ForeignKey) (e : Edge) : Prop where
  source : ∃ n, (t.schema, n) ∈ placed db.diagram ∧ n.label = t.name ∧ n.id = e.source
  target : (k.schema, k.table) ∈ db.qualifiedNames →
    ∃ n, (k.schema, n) ∈ placed db.diagram ∧ n.label = k.table ∧ n.id = e.target
  missing : (k.schema, k.table) ∉ db.qualifiedNames → ∀ p ∈ placed db.diagram, p.2.id ≠ e.target

/-- What the diagram of a database shows of its relations and foreign keys. -/
structure ShowsKeys (db : Database) : Prop where
  /-- Nodes stand in the containers only, not in one another. -/
  flat : db.diagram.nodes = [] ∧
    ∀ c ∈ db.diagram.containers, c.containers = [] ∧ ∀ n ∈ c.nodes, n.children = []
  /-- The nodes are those of the relations. -/
  nodes : (placed db.diagram).map relationOf = db.qualifiedNames
  ids : ((placed db.diagram).map (·.2.id)).Nodup
  /-- The edges with the arrow of a key are those of the foreign keys, in their order. -/
  keys : List.Forall₂ (fun r e => Joins db r.1 r.2 e) db.foreignKeys
    (db.diagram.edges.filter (·.arrow = "--"))

/-- In the diagram of a database whose relations can be told apart every relation has one node with
an identifier of its own, and every foreign key has one edge, from the node of its table to that of
the relation it refers to. -/
theorem showsKeys {db : Database} (h : WellNamed db) : ShowsKeys db := by
  obtain ⟨ids, hids⟩ := exists_identifies h
  have hflat := flat_diagram db
  have htop : db.diagram.nodes = [] := by
    have hdiagram : db.diagram = _ := foldl_addContainer _ _
    rw [hdiagram]
  have hnodup : ((placed db.diagram).map relationOf).Nodup := by
    rw [hids.names]
    exact nodup_qualifiedNames h
  refine ⟨⟨htop, fun c hc => ?_⟩, hids.names, ?_, ?_⟩
  · have hc := hflat.containers c hc
    exact ⟨hc.containers, fun n hn => (hc.nodes n hn).children⟩
  · refine List.Nodup.map_on (fun p hp q hq hid => ?_) (.of_map relationOf hnodup)
    have hrelation : relationOf p = relationOf q :=
      hids.relationOf_eq h hp (hid ▸ hids.nodes q hq)
    exact List.inj_on_of_nodup_map hnodup hp hq hrelation
  · have hholders : ∀ r ∈ db.foreignKeys, r.1 ∈ db.tables := by
      intro r hr
      obtain ⟨t, ht, hr⟩ := List.mem_flatMap.1 hr
      obtain ⟨k, -, rfl⟩ := List.mem_map.1 hr
      exact ht
    refine ((List.forall₂_and_left _ _).2 ⟨hholders, hids.edges⟩).imp ?_
    rintro ⟨t, k⟩ e ⟨ht, hlinks⟩
    refine ⟨?_, fun hr => ?_, fun hr p hp hid => ?_⟩
    · exact hids.exists_node (mem_qualifiedNames h ht) hlinks.source
    · exact hids.exists_node hr hlinks.target
    · have hrelation := hids.relationOf_eq h hp (hid ▸ hlinks.target)
      rw [← hrelation, ← hids.names] at hr
      exact hr (List.mem_map_of_mem hp)

/-- Two tables with keys from the first to the second and to one that is missing. All three names
look alike as identifiers. -/
def lookAlikeDatabase : Database where
  name := "shop"
  schemas := [
    { name := "a"
      tables := [{ schema := "a", name := "b_c"
                   foreignKeys := [{ name := "kept", schema := "a_b", table := "c" },
                     { name := "gone", schema := "a.b", table := "c" }] }] },
    { name := "a_b", tables := [{ schema := "a_b", name := "c" }] }]

theorem wellNamed_lookAlikeDatabase : WellNamed lookAlikeDatabase where
  schemas := by decide
  relations := by decide
  tables := by decide
  separator := by decide

theorem showsKeys_lookAlikeDatabase : WellNamed lookAlikeDatabase ∧ ShowsKeys lookAlikeDatabase :=
  ⟨wellNamed_lookAlikeDatabase, showsKeys wellNamed_lookAlikeDatabase⟩

example : lookAlikeDatabase.diagram.edges.map (fun e => (e.source, e.target)) =
    [("a_b_c", "a_b_c_2"), ("a_b_c", "a_b_c_3")] := by
  decide +kernel

end Atlas.Sql
