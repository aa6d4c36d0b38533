import Atlas.Proofs.Graph.Growth
import Atlas.Proofs.Swagger.RequestFiles
import Atlas.Swagger.Read
import Atlas.Swagger.Report

/-!
# Endpoints of a description

A description has its paths in order (`inOrder_paths_of_read`), and an endpoint for each operation
that it declares (`Spec.declared?`), in the order of paths and then of verbs (`Spec.filter_endpoints`,
`Spec.pairwise_endpoints`). The groups are the endpoints once more, by tags (`Spec.perm_groups`). The
name of an endpoint in the graph tells its verb and its path (`Endpoint.entity_eq_iff`), as no verb
has a blank in it, so the graph is built without a duplicate (`Spec.graph?_eq`), and what it has
follows (`Spec.endpoints_listed`).
-/

set_option linter.unusedSectionVars false

namespace Atlas.Swagger

/-! ## Paths in order -/

theorem inOrder_record {α : Type} {f : Json.Typed α} {depth : ℕ} {t : Json.Tree}
    {es : List (String × α)} (h : Json.Typed.record f depth t = some es) : InOrder es := by
  unfold Json.Typed.record at h
  split at h
  · obtain ⟨ms, -, rfl⟩ := Option.map_eq_some_iff.1 h
    exact Data.inOrder_sortedMembers ms
  · cases h

theorem inOrder_field {α : Type} {fs : Json.Typed.Fields} {depth : ℕ} {name : String}
    {f : Json.Typed α} {es : List (String × α)}
    (h : Json.Typed.field fs depth name [] (Json.Typed.record f) = some es) : InOrder es := by
  unfold Json.Typed.field at h
  split at h
  · exact inOrder_record h
  · cases h
    exact InOrder.nil

/-- The paths of a description that is read are in order. -/
theorem inOrder_paths_of_read {text : String} {spec : Spec} (h : Spec.read text = .ok spec) :
    InOrder spec.paths := by
  unfold Spec.read at h
  split at h
  · cases h
  · next read hread =>
    split_ifs at h
    obtain rfl := Except.ok.inj h
    obtain ⟨t, -, ht⟩ := Option.bind_eq_some_iff.1 hread
    simp only [Json.maxDepth, spec?, Option.bind_eq_bind, Option.bind_eq_some_iff,
      Option.pure_def, Option.some.injEq] at ht
    obtain ⟨fs, -, _, -, _, -, _, -, _, -, _, -, _, -, paths, hpaths, _, -, _, -, rfl⟩ := ht
    exact inOrder_field hpaths

/-! ## Endpoints in order -/

/-- The operation that a description declares for a path and a verb. -/
def Spec.declared? (spec : Spec) (path : String) (verb : Verb) : Option Endpoint :=
  (spec.paths.lookup path).bind fun item =>
    (item.operation verb).map fun o => ⟨verb, path, o, item.parameters⟩

namespace Verb

theorem mem_all (v : Verb) : v ∈ all := by
  cases v <;> decide

theorem pairwise_all : all.Pairwise fun v w => all.idxOf v < all.idxOf w := by
  decide

theorem notMem_upper (v : Verb) : ' ' ∉ v.upper.toList := by
  cases v <;> decide

theorem upper_inj {v w : Verb} (h : v.upper = w.upper) : v = w := by
  revert h
  cases v <;> cases w <;> decide

end Verb

namespace Endpoint

/-- The endpoint is listed before another : by its path, or on one path by its verb. -/
def Before (e f : Endpoint) : Prop :=
  e.path < f.path ∨ e.path = f.path ∧ Verb.all.idxOf e.verb < Verb.all.idxOf f.verb

/-- The path and the verb of the endpoint. -/
def key (e : Endpoint) : String × Verb :=
  (e.path, e.verb)

theorem Before.key_ne {e f : Endpoint} (h : e.Before f) : e.key ≠ f.key := by
  intro hkey
  obtain ⟨hpath, hverb⟩ := Prod.mk.inj hkey
  rcases h with hlt | ⟨-, hlt⟩
  · exact absurd hlt (hpath ▸ lt_irrefl _)
  · exact absurd hlt (hverb ▸ lt_irrefl _)

end Endpoint

theorem PathItem.mem_endpoints_iff {path : String} {item : PathItem} {e : Endpoint} :
    e ∈ item.endpoints path ↔ ∃ verb, ∃ o ∈ item.operation verb,
      (⟨verb, path, o, item.parameters⟩ : Endpoint) = e := by
  simp [PathItem.endpoints, Verb.mem_all, List.mem_filterMap, Option.map_eq_some_iff]

namespace Spec

variable {spec : Spec}

theorem mem_endpoints_iff (h : InOrder spec.paths) {e : Endpoint} :
    e ∈ spec.endpoints ↔ spec.declared? e.path e.verb = some e := by
  have hlookup : ∀ path item, (path, item) ∈ spec.paths ↔ spec.paths.lookup path = some item :=
    fun path item => h.lookup_eq_some_iff.symm
  simp only [endpoints, List.mem_flatMap, Prod.exists, PathItem.mem_endpoints_iff, hlookup,
    declared?, Option.bind_eq_some_iff, Option.map_eq_some_iff]
  constructor
  · rintro ⟨path, item, hitem, verb, o, ho, rfl⟩
    exact ⟨item, hitem, o, ho, rfl⟩
  · rintro ⟨item, hitem, o, ho, he⟩
    exact ⟨e.path, item, hitem, e.verb, o, ho, he⟩

theorem pairwise_endpoints (h : InOrder spec.paths) : spec.endpoints.Pairwise Endpoint.Before := by
  refine List.pairwise_flatMap.2 ⟨fun p _ => ?_, (List.pairwise_map.1 h).imp ?_⟩
  · refine List.pairwise_filterMap.2 (Verb.pairwise_all.imp fun {v w} hvw e he f hf => ?_)
    obtain ⟨o, -, rfl⟩ := Option.map_eq_some_iff.1 he
    obtain ⟨o', -, rfl⟩ := Option.map_eq_some_iff.1 hf
    exact Or.inr ⟨rfl, hvw⟩
  · intro p q hpq e he f hf
    obtain ⟨v, o, -, rfl⟩ := PathItem.mem_endpoints_iff.1 he
    obtain ⟨w, o', -, rfl⟩ := PathItem.mem_endpoints_iff.1 hf
    exact Or.inl hpq

theorem nodup_keys (h : InOrder spec.paths) : (spec.endpoints.map Endpoint.key).Nodup :=
  List.pairwise_map.2 ((pairwise_endpoints h).imp Endpoint.Before.key_ne)

/-- There is one endpoint for a path and a verb if an operation is declared for them, and none
otherwise. -/
theorem filter_endpoints (h : InOrder spec.paths) (path : String) (verb : Verb) :
    spec.endpoints.filter (·.key = (path, verb)) = (spec.declared? path verb).toList := by
  cases hdeclared : spec.declared? path verb with
  | none =>
    refine List.filter_eq_nil_iff.2 fun e he hkey => ?_
    obtain ⟨rfl, rfl⟩ := Prod.mk.inj (of_decide_eq_true hkey)
    rw [(mem_endpoints_iff h).1 he] at hdeclared
    cases hdeclared
  | some e =>
    have hkey : e.key = (path, verb) := by
      obtain ⟨item, -, he⟩ := Option.bind_eq_some_iff.1 hdeclared
      obtain ⟨o, -, rfl⟩ := Option.map_eq_some_iff.1 he
      rfl
    obtain ⟨rfl, rfl⟩ := Prod.mk.inj hkey
    exact filter_key_eq Endpoint.key (nodup_keys h) ((mem_endpoints_iff h).2 hdeclared)

/-! ## Groups -/

theorem nodup_tags (spec : Spec) : spec.tags.Nodup :=
  spec.pairwise_tags.imp ne_of_lt

/-- The groups hold every endpoint once. -/
theorem perm_groups (spec : Spec) : (spec.groups.flatMap Prod.snd).Perm spec.endpoints := by
  rw [groups_eq, List.flatMap_map]
  exact perm_flatMap_filter Endpoint.tag spec.nodup_tags fun e he => spec.mem_tags.2 ⟨e, he, rfl⟩

end Spec

/-! ## The graph -/

namespace Endpoint

/-- The entity of the endpoint : its verb and its path. -/
def entity (e : Endpoint) : Entity :=
  { kind := .api, name := e.verb.upper ++ " " ++ e.path }

/-- The tag contains the endpoint. -/
def containedIn (tag : String) (e : Endpoint) : Relation :=
  ⟨tagEntity tag, e.entity, .contains, none⟩

/-- The verb ends at the first blank of the name. -/
theorem entity_eq_iff {e f : Endpoint} : e.entity = f.entity ↔ e.key = f.key := by
  have hverb : ∀ v : Verb, ∀ path : String,
      (v.upper ++ " " ++ path).toList.takeWhile (· ≠ ' ') = v.upper.toList := by
    intro v path
    have hbare : ∀ c ∈ v.upper.toList, decide (c ≠ ' ') = true := fun c hc =>
      decide_eq_true fun he => v.notMem_upper (he ▸ hc)
    rw [String.toList_append, String.toList_append, List.append_assoc,
      List.takeWhile_append_of_pos hbare]
    simp
  constructor
  · intro h
    have hname : e.verb.upper ++ " " ++ e.path = f.verb.upper ++ " " ++ f.path :=
      congrArg Entity.name h
    have hupper := hverb e.verb e.path
    rw [hname, hverb] at hupper
    have hv : f.verb = e.verb := Verb.upper_inj (String.toList_inj.1 hupper)
    rw [hv, String.append_right_inj] at hname
    exact Prod.ext hname hv.symm
  · intro h
    obtain ⟨hpath, hv⟩ := Prod.mk.inj h
    rw [entity, entity, hpath, hv]

end Endpoint

/-- The graph with an endpoint of a tag, if that is no duplicate. -/
def addEndpoint? (tag : String) (g : Graph) (e : Endpoint) : Result Graph := do
  let (_, g) ← g.add e.entityNode
  return g.relate (e.containedIn tag)

/-- The graph with a tag and its endpoints, if none of them is a duplicate. -/
def addGroup? (g : Graph) (group : String × List Endpoint) : Result Graph := do
  let (_, g) ← g.add { entity := tagEntity group.1 }
  group.2.foldlM (addEndpoint? group.1) g

/-- The graph of an API, if nothing in it is a duplicate. -/
def Spec.graph? (s : Spec) : Result Graph :=
  s.groups.foldlM addGroup? .empty

/-- The nodes of a group : the tag and its endpoints. -/
def groupNodes (group : String × List Endpoint) : List EntityNode :=
  { entity := tagEntity group.1 } :: group.2.map (·.entityNode)

/-- The relations of a group. -/
def groupRelations (group : String × List Endpoint) : List Relation :=
  group.2.map (Endpoint.containedIn group.1)

section Growth

open Atlas.Graph

variable {g : Graph}

theorem addEndpoint?_eq (h : g.WellFormed) (hg : g.dangling = []) {tag : String}
    (htag : tagEntity tag ∈ g.mentioned) {e : Endpoint} (hnew : e.entity ∉ g.mentioned) :
    addEndpoint? tag g e = .ok (addEndpoint (tagEntity tag) g e) ∧
      Grows g [e.entityNode] [e.containedIn tag] (addEndpoint (tagEntity tag) g e) := by
  obtain ⟨ha, hadded⟩ := Grows.add h hg (n := e.entityNode) rfl hnew
  rw [addEndpoint?, addEndpoint, ha]
  refine ⟨rfl, hadded.trans (.foldl_relate hadded.wellFormed hadded.dangling ?_)⟩
  rw [List.forall_mem_singleton, hadded.mentioned]
  exact ⟨List.mem_append_left _ htag, List.mem_append_right _ List.mem_cons_self⟩

/-- Endpoints that are all new are no duplicates. -/
theorem addEndpoints?_eq (h : g.WellFormed) (hg : g.dangling = []) {tag : String}
    (htag : tagEntity tag ∈ g.mentioned) {es : List Endpoint}
    (hnew : (g.mentioned ++ es.map (·.entity)).Nodup) :
    es.foldlM (addEndpoint? tag) g = .ok (es.foldl (addEndpoint (tagEntity tag)) g) ∧
      Grows g (es.map (·.entityNode)) (es.map (Endpoint.containedIn tag))
        (es.foldl (addEndpoint (tagEntity tag)) g) := by
  induction es generalizing g with
  | nil => exact ⟨rfl, .refl h hg⟩
  | cons e es ih =>
    rw [List.map_cons, List.append_cons] at hnew
    have he : e.entity ∉ g.mentioned := fun hmem =>
      (List.nodup_append.1 hnew.of_append_left).2.2 _ hmem _ List.mem_cons_self rfl
    obtain ⟨hok, hone⟩ := addEndpoint?_eq h hg htag he
    have hmentioned : (addEndpoint (tagEntity tag) g e).mentioned = g.mentioned ++ [e.entity] :=
      hone.mentioned
    obtain ⟨hoks, hrest⟩ := ih hone.wellFormed hone.dangling
      (hmentioned ▸ List.mem_append_left _ htag) (hmentioned ▸ hnew)
    refine ⟨?_, hone.trans hrest⟩
    rw [List.foldlM_cons, hok]
    exact hoks

/-- The graph with a tag and its endpoints. -/
def addGroup (g : Graph) (group : String × List Endpoint) : Graph :=
  group.2.foldl (addEndpoint (tagEntity group.1)) (g.addNew { entity := tagEntity group.1 })

theorem addGroup?_eq (h : g.WellFormed) (hg : g.dangling = []) {group : String × List Endpoint}
    (hnew : (g.mentioned ++ (groupNodes group).map (·.entity)).Nodup) :
    addGroup? g group = .ok (addGroup g group) ∧
      Grows g (groupNodes group) (groupRelations group) (addGroup g group) := by
  rw [groupNodes, List.map_cons, List.append_cons, List.map_map] at hnew
  have htag : tagEntity group.1 ∉ g.mentioned := fun hmem =>
    (List.nodup_append.1 hnew.of_append_left).2.2 _ hmem _ List.mem_cons_self rfl
  obtain ⟨ha, hadded⟩ := Grows.add h hg (n := { entity := tagEntity group.1 }) rfl htag
  have hmentioned := hadded.mentioned
  rw [List.map_singleton] at hmentioned
  rw [← hmentioned] at hnew
  have hplaced : tagEntity group.1 ∈ (g.push { entity := tagEntity group.1 }).mentioned :=
    hmentioned ▸ List.mem_concat_self
  obtain ⟨hoks, hrest⟩ := addEndpoints?_eq hadded.wellFormed hadded.dangling hplaced hnew
  rw [addGroup?, addGroup, Graph.addNew, ha]
  exact ⟨hoks, hadded.trans hrest⟩

/-- Groups whose tags and endpoints are all new have no duplicates. -/
theorem addGroups?_eq (h : g.WellFormed) (hg : g.dangling = [])
    {groups : List (String × List Endpoint)}
    (hnew : (g.mentioned ++ (groups.flatMap groupNodes).map (·.entity)).Nodup) :
    groups.foldlM addGroup? g = .ok (groups.foldl addGroup g) ∧
      Grows g (groups.flatMap groupNodes) (groups.flatMap groupRelations)
        (groups.foldl addGroup g) := by
  induction groups generalizing g with
  | nil => exact ⟨rfl, .refl h hg⟩
  | cons group groups ih =>
    rw [List.flatMap_cons, List.map_append, ← List.append_assoc] at hnew
    obtain ⟨hok, hone⟩ := addGroup?_eq h hg hnew.of_append_left
    obtain ⟨hoks, hrest⟩ := ih hone.wellFormed hone.dangling (hone.mentioned ▸ hnew)
    refine ⟨?_, hone.trans hrest⟩
    rw [List.foldlM_cons, hok]
    exact hoks

end Growth

namespace Spec

open Atlas.Graph

variable {spec : Spec}

theorem graph_eq (spec : Spec) : spec.graph = spec.groups.foldl addGroup .empty :=
  rfl

theorem nodup_entities (h : InOrder spec.paths) : (spec.endpoints.map (·.entity)).Nodup :=
  List.pairwise_map.2 ((pairwise_endpoints h).imp fun hbefore he =>
    hbefore.key_ne (Endpoint.entity_eq_iff.1 he))

/-- No two tags or endpoints are one entity. -/
theorem nodup_groupNodes (h : InOrder spec.paths) :
    ((spec.groups.flatMap groupNodes).map (·.entity)).Nodup := by
  have hsplit : (spec.groups.flatMap groupNodes).map (·.entity) =
      spec.groups.flatMap fun g => [tagEntity g.1] ++ g.2.map (·.entity) := by
    rw [List.map_flatMap]
    refine List.flatMap_congr fun g _ => ?_
    rw [groupNodes, List.map_cons, List.map_map]
    rfl
  have htags : (spec.tags.map tagEntity).Nodup := by
    refine spec.nodup_tags.map fun s t hst => ?_
    have hname : "tag/" ++ s = "tag/" ++ t := congrArg Entity.name hst
    exact (String.append_right_inj _).1 hname
  have hperm : (spec.tags.map tagEntity ++ spec.endpoints.map (·.entity)).Perm
      ((spec.groups.flatMap groupNodes).map (·.entity)) := by
    rw [hsplit]
    refine List.Perm.trans ?_ (List.flatMap_append_perm _ _ _)
    rw [tags, List.map_map, ← List.map_flatMap]
    refine List.Perm.append (List.Perm.of_eq ?_) (spec.perm_groups.symm.map _)
    exact List.map_eq_flatMap ..
  refine hperm.nodup_iff.1 (List.nodup_append.2 ⟨htags, nodup_entities h, ?_⟩)
  intro a ha b hb
  obtain ⟨t, -, rfl⟩ := List.mem_map.1 ha
  obtain ⟨e, -, rfl⟩ := List.mem_map.1 hb
  simp [tagEntity, Endpoint.entity]

/-- The graph is built without a duplicate. -/
theorem graph?_eq (h : InOrder spec.paths) : spec.graph? = .ok spec.graph ∧
    Grows .empty (spec.groups.flatMap groupNodes) (spec.groups.flatMap groupRelations) spec.graph :=
  addGroups?_eq wellFormed_empty rfl (nodup_groupNodes h)

theorem tag_of_mem_groups {group : String × List Endpoint} (hgroup : group ∈ spec.groups)
    {e : Endpoint} (he : e ∈ group.2) : e.tag = group.1 := by
  rw [(spec.mem_groups.1 hgroup).1] at he
  exact of_decide_eq_true (List.mem_filter.1 he).2

/-- The entities of endpoints are those of all groups. -/
theorem entitiesOfKind_graph (h : InOrder spec.paths) : spec.graph.entitiesOfKind .api =
    (spec.groups.flatMap Prod.snd).map (·.entityNode) := by
  have hnodes : spec.graph.nodes = spec.groups.flatMap groupNodes := (graph?_eq h).2.nodes
  rw [entitiesOfKind, hnodes, List.filter_flatMap, List.map_flatMap]
  refine List.flatMap_congr fun group _ => ?_
  rw [groupNodes, List.filter_cons_of_neg (by simp [tagEntity]), List.filter_eq_self]
  exact List.forall_mem_map.2 fun e _ => rfl

/-- Every relation leads from the tag of an endpoint to that endpoint. -/
theorem relations_graph (h : InOrder spec.paths) : spec.graph.relations =
    (spec.groups.flatMap Prod.snd).map fun e => e.containedIn e.tag := by
  have hrelations : spec.graph.relations = spec.groups.flatMap groupRelations :=
    (graph?_eq h).2.relations
  rw [hrelations, List.map_flatMap]
  refine List.flatMap_congr fun group hgroup => List.map_congr_left fun e he => ?_
  rw [tag_of_mem_groups hgroup he]

theorem contains_graph (h : InOrder spec.paths) :
    spec.graph.relationsOfKind .contains = spec.graph.relations := by
  rw [relationsOfKind, List.filter_eq_self, relations_graph h]
  exact List.forall_mem_map.2 fun e _ => rfl

/-- An endpoint is contained in its tag, and in nothing else. -/
theorem filter_contains_graph (h : InOrder spec.paths) {e : Endpoint} (he : e ∈ spec.endpoints) :
    (spec.graph.relationsOfKind .contains).filter (·.target = e.entity) =
      [e.containedIn e.tag] := by
  have hperm := (spec.perm_groups.map fun e => e.containedIn e.tag).filter (·.target = e.entity)
  rw [← relations_graph h, List.filter_map] at hperm
  have hone : spec.endpoints.filter ((decide <| ·.target = e.entity) ∘ fun e => e.containedIn e.tag) =
      [e] := filter_key_eq Endpoint.entity (nodup_entities h) he
  rw [hone] at hperm
  rw [contains_graph h]
  exact List.perm_singleton.1 hperm

/-- The endpoints are those that are declared, each once and in order. The groups are the endpoints
by their first tags, each in its group and in the same order there. The graph is built without a
duplicate, and has an entity for each endpoint, which only the tag of the endpoint contains. -/
structure ListsEndpoints (spec : Spec) : Prop where
  declared : ∀ path verb,
    spec.endpoints.filter (·.key = (path, verb)) = (spec.declared? path verb).toList
  ordered : spec.endpoints.Pairwise Endpoint.Before
  tagged : ∀ e ∈ spec.endpoints, (e.operation.tags ++ ["default"]).head? = some e.tag
  tags : spec.tags.Pairwise (· < ·)
  grouped : spec.groups = spec.tags.map fun tag => (tag, spec.endpoints.filter (·.tag = tag))
  perm : (spec.groups.flatMap Prod.snd).Perm spec.endpoints
  sublist : ∀ group ∈ spec.groups, group.2.Sublist spec.endpoints
  graph? : spec.graph? = .ok spec.graph
  dangling : spec.graph.dangling = []
  extracted : (spec.graph.entitiesOfKind .api).Perm (spec.endpoints.map (·.entityNode))
  contained : ∀ e ∈ spec.endpoints,
    (spec.graph.relationsOfKind .contains).filter (·.target = e.entity) = [e.containedIn e.tag]

theorem listsEndpoints (h : InOrder spec.paths) : spec.ListsEndpoints where
  declared := filter_endpoints h
  ordered := pairwise_endpoints h
  tagged e _ := by
    cases htags : e.operation.tags <;> simp [Endpoint.tag, htags]
  tags := spec.pairwise_tags
  grouped := spec.groups_eq
  perm := spec.perm_groups
  sublist group hgroup := by
    rw [(spec.mem_groups.1 hgroup).1]
    exact List.filter_sublist
  graph? := (graph?_eq h).1
  dangling := (graph?_eq h).2.dangling
  extracted := by
    rw [entitiesOfKind_graph h]
    exact spec.perm_groups.map _
  contained e he := filter_contains_graph h he

/-- A description that is read has its paths in order, and every description that has them so lists
its endpoints. -/
theorem endpoints_listed :
    (∀ text spec, Spec.read text = .ok spec → InOrder spec.paths) ∧
    ∀ spec : Spec, InOrder spec.paths → spec.ListsEndpoints :=
  ⟨fun _ _ => inOrder_paths_of_read, fun _ => listsEndpoints⟩

/-- A description of a store. -/
def storeSpec : Spec where
  paths :=
    [("/", { operation := fun verb => if verb = .head then some {} else none }),
      ("/orders", { operation := fun verb =>
        if verb = .post ∨ verb = .get then some { tags := ["orders", "admin"] } else none }),
      ("/orders/{id}", { operation := fun verb =>
        if verb = .delete then some { tags := ["admin"] }
        else if verb = .get then some { tags := ["orders"] } else none })]

theorem endpoints_listed_storeSpec : InOrder storeSpec.paths ∧ storeSpec.ListsEndpoints ∧
    storeSpec.groups.map (fun group => (group.1, group.2.map Endpoint.key)) =
      [("admin", [("/orders/{id}", .delete)]), ("default", [("/", .head)]),
        ("orders", [("/orders", .get), ("/orders", .post), ("/orders/{id}", .get)])] := by
  have hpaths : InOrder storeSpec.paths := by
    unfold InOrder
    decide +kernel
  exact ⟨hpaths, endpoints_listed.2 storeSpec hpaths, by decide +kernel⟩

end Spec

end Atlas.Swagger
