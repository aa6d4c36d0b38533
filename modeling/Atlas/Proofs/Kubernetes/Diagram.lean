import Atlas.Kubernetes.Report
import Atlas.Proofs.Identifiers.Keys
import Atlas.Proofs.Kubernetes.Graph
import Atlas.Proofs.Text

/-!
# The diagram of manifests

A resource is drawn with the identifier of its key's text, which joins the parts of the key by
slashes (`ResourceKey.text`), and so are the ends of a relation (`Manifests.exists_drawnBy`). So two
keys are drawn as one just if their texts are equal. Keys of one entity have one text
(`ResourceKey.text_eq_of_entity_eq`), so that the texts alone decide whether the resources are kept
apart in the graph and in the diagram (`Manifests.showsResources`). Without slashes in namespaces
and kinds they are (`ResourceKey.text_inj`).
-/

set_option linter.unusedSectionVars false

namespace Atlas.Kubernetes

open Identifiers

/-! ## Texts of keys -/

/-- The parts of a key with slashes between them. -/
def ResourceKey.text (k : ResourceKey) : String :=
  k.ns ++ "/" ++ k.kind ++ "/" ++ k.name

namespace ResourceKey

theorem text_eq (k : ResourceKey) : k.text = k.ns ++ "/" ++ (k.kind ++ "/" ++ k.name) := by
  simp only [text, String.append_assoc]

theorem text_eq_of_entity_eq {k k' : ResourceKey} (h : k.entity = k'.entity) :
    k.text = k'.text := by
  rcases entity_eq_iff.1 h with rfl | ⟨-, -, hns, hname⟩
  · rfl
  · rw [text_eq, text_eq, hns, hname]

/-- No slash is in the parts of a key that stand before one. -/
structure Plain (k : ResourceKey) : Prop where
  ns : '/' ∉ k.ns.toList
  kind : '/' ∉ k.kind.toList

theorem Plain.splitOn_text {k : ResourceKey} (h : k.Plain) : Chars.splitOn '/' k.text.toList =
    k.ns.toList :: k.kind.toList :: Chars.splitOn '/' k.name.toList := by
  have htext : k.text.toList =
      k.ns.toList ++ '/' :: (k.kind.toList ++ '/' :: k.name.toList) := by
    simp [text]
  rw [htext, Chars.splitOn_append, Chars.splitOn_append, Chars.splitOn_of_not_mem h.ns,
    Chars.splitOn_of_not_mem h.kind]
  rfl

theorem text_inj {k k' : ResourceKey} (hk : k.Plain) (hk' : k'.Plain) (h : k.text = k'.text) :
    k = k' := by
  have hsplit := congrArg (fun s => Chars.splitOn '/' s.toList) h
  rw [hk.splitOn_text, hk'.splitOn_text] at hsplit
  obtain ⟨hns, hrest⟩ := List.cons.inj hsplit
  obtain ⟨hkind, hname⟩ := List.cons.inj hrest
  have hname := congrArg (Chars.join ['/']) hname
  rw [Chars.join_splitOn, Chars.join_splitOn] at hname
  obtain ⟨ns, kind, name⟩ := k
  obtain ⟨ns', kind', name'⟩ := k'
  rw [mk.injEq]
  exact ⟨String.toList_inj.1 hns, String.toList_inj.1 hkind, String.toList_inj.1 hname⟩

end ResourceKey

/-! ## Nodes and edges -/

/-- The node of a resource. -/
def Resource.node (r : Resource) (id : String) : Node :=
  { shape := .component, id, label := r.kind ++ ": " ++ r.name, style := some (kindStyle r.kind) }

/-- The edge of a relation, where each key has a name. -/
def ResourceRelation.edge (q : ResourceRelation) (name : ResourceKey → String) : Edge :=
  { source := name q.source, arrow := "-->", target := name q.target }

theorem names_resourceNodes {ids : Identifiers} (h : Reached ids) (rs : List Resource) :
    Names ids (resourceNodes ids rs).2 (·.key.text) Resource.node rs (resourceNodes ids rs).1 := by
  induction rs generalizing ids with
  | nil => exact .nil h
  | cons r rs ih => exact .cons h (ih (h.idFor _ _).2.reached)

/-- The ends of relations are drawn with the identifiers of their keys. -/
theorem exists_relationEdges {ids : Identifiers} (h : Reached ids) (qs : List ResourceRelation) :
    ∃ ids', Continues ids ids' ∧
      (∀ q ∈ qs, ids'.Knows q.source.text ∧ ids'.Knows q.target.text) ∧
      relationEdges ids qs = qs.map (·.edge fun k => ids'.idOf k.text) := by
  induction qs generalizing ids with
  | nil => exact ⟨ids, .refl h, List.forall_mem_nil _, rfl⟩
  | cons q qs ih =>
    obtain ⟨hs, hsid⟩ := knows_idFor ids q.source.text (Text.toLower q.source.name)
    have hsource := (h.idFor q.source.text (Text.toLower q.source.name)).2
    set ids₁ := (ids.idFor q.source.text (Text.toLower q.source.name)).2
    obtain ⟨ht, htid⟩ := knows_idFor ids₁ q.target.text (Text.toLower q.target.name)
    have htarget := (hsource.reached.idFor q.target.text (Text.toLower q.target.name)).2
    obtain ⟨ids', hrest, hknows, hedges⟩ := ih htarget.reached
    have hlast := htarget.trans hrest
    refine ⟨ids', hsource.trans hlast,
      List.forall_mem_cons.2 ⟨⟨hlast.knows hs, hrest.knows ht⟩, hknows⟩, ?_⟩
    rw [List.map_cons, ← hedges, ResourceRelation.edge, hlast.idOf_eq hs, hrest.idOf_eq ht, hsid,
      htid]
    rfl

namespace Manifests

variable {m : Manifests}

/-- The keys of the resources and those at the ends of the relations. -/
def keys (m : Manifests) : List ResourceKey :=
  m.resources.map (·.key) ++ m.relations.flatMap fun q => [q.source, q.target]

theorem forall_mem_keys {p : ResourceKey → Prop} : (∀ k ∈ m.keys, p k) ↔
    (∀ r ∈ m.resources, p r.key) ∧ ∀ q ∈ m.relations, p q.source ∧ p q.target := by
  rw [keys, List.forall_mem_append, List.forall_mem_map, List.forall_mem_flatMap]
  simp only [List.forall_mem_cons, List.not_mem_nil, false_imp_iff, implies_true, and_true]

theorem key_mem_keys {r : Resource} (hr : r ∈ m.resources) : r.key ∈ m.keys :=
  (forall_mem_keys.1 fun _ hk => hk).1 r hr

theorem ends_mem_keys {q : ResourceRelation} (hq : q ∈ m.relations) :
    q.source ∈ m.keys ∧ q.target ∈ m.keys :=
  (forall_mem_keys.1 fun _ hk => hk).2 q hq

theorem map_map_key {β : Type} (f : ResourceKey → β) :
    (m.resources.map (·.key)).map f = m.resources.map fun r => f r.key :=
  List.map_map

/-- The diagram has a node for each resource and an edge for each relation, with one name for keys
of one text. -/
structure DrawnBy (m : Manifests) (name : ResourceKey → String) : Prop where
  diagram : m.diagram =
    { title := "Kubernetes Infrastructure"
      nodes := m.resources.map fun r => r.node (name r.key)
      edges := m.relations.map (·.edge name) }
  name_eq_iff : ∀ k ∈ m.keys, ∀ k' ∈ m.keys, name k = name k' ↔ k.text = k'.text

theorem exists_drawnBy (m : Manifests) : ∃ name, m.DrawnBy name := by
  have hnodes := names_resourceNodes reached_empty m.resources
  obtain ⟨ids, hrest, hends, hedges⟩ := exists_relationEdges hnodes.continues.reached m.relations
  have hnodes := hnodes.trans hrest
  have hknows : ∀ k ∈ m.keys, ids.Knows k.text := forall_mem_keys.2 ⟨hnodes.knows, hends⟩
  refine ⟨fun k => ids.idOf k.text, ?_, fun k hk k' hk' => ?_⟩
  · rw [Manifests.diagram, ← hedges, ← hnodes.eq_map]
  · exact hrest.reached.idOf_eq_iff (hknows k hk) (hknows k' hk')

namespace DrawnBy

variable {name : ResourceKey → String}

theorem ids (h : m.DrawnBy name) :
    m.diagram.nodes.map (·.id) = (m.resources.map (·.key)).map name := by
  rw [h.diagram, map_map_key, List.map_map]
  rfl

theorem zip_nodes (h : m.DrawnBy name) : m.resources.zip m.diagram.nodes =
    m.resources.map fun r => (r, r.node (name r.key)) := by
  rw [h.diagram]
  simpa using List.zip_map' (f := id) (g := fun r : Resource => r.node (name r.key))
    (l := m.resources)

theorem zip_edges (h : m.DrawnBy name) : m.relations.zip m.diagram.edges =
    m.relations.map fun q => (q, q.edge name) := by
  rw [h.diagram]
  simpa using List.zip_map' (f := id) (g := fun q : ResourceRelation => q.edge name)
    (l := m.relations)

end DrawnBy

/-! ## Resources that are kept apart -/

/-- Every resource has an entity and a node of its own, and a relation ends at the node of a
resource just if it has the key of that at this end. -/
structure KeptApart (m : Manifests) : Prop where
  entities : m.graph.entities = m.resources.map (·.entityNode)
  nodes : (m.diagram.nodes.map (·.id)).Nodup
  ends : ∀ p ∈ m.relations.zip m.diagram.edges, ∀ s ∈ m.resources.zip m.diagram.nodes,
    (p.2.source = s.2.id ↔ p.1.source = s.1.key) ∧ (p.2.target = s.2.id ↔ p.1.target = s.1.key)

/-- The keys of the resources differ, and each in its text from all other keys. -/
structure TellsApart (m : Manifests) : Prop where
  nodup : (m.resources.map (·.key)).Nodup
  eq_of_text_eq : ∀ r ∈ m.resources, ∀ k ∈ m.keys, r.key.text = k.text → r.key = k

theorem entities_eq_iff : m.graph.entities = m.resources.map (·.entityNode) ↔
    ((m.resources.map (·.key)).map (·.entity)).Nodup := by
  rw [entities_graph, map_firsts_eq_iff, map_map_key]

theorem KeptApart.tellsApart (h : m.KeptApart) : m.TellsApart := by
  obtain ⟨name, hname⟩ := m.exists_drawnBy
  refine ⟨(entities_eq_iff.1 h.entities).of_map, fun r hr => forall_mem_keys.2 ⟨?_, fun q hq => ?_⟩⟩
  · intro s hs htext
    have hnodup : (m.resources.map fun r => name r.key).Nodup := by
      rw [← map_map_key, ← hname.ids]
      exact h.nodes
    have heq := (hname.name_eq_iff _ (key_mem_keys hr) _ (key_mem_keys hs)).2 htext
    rw [List.inj_on_of_nodup_map hnodup hr hs heq]
  · obtain ⟨hs, ht⟩ := ends_mem_keys hq
    have hends := h.ends
    rw [hname.zip_nodes, hname.zip_edges] at hends
    obtain ⟨hsource, htarget⟩ := hends _ (List.mem_map_of_mem hq) _ (List.mem_map_of_mem hr)
    refine ⟨fun htext => (hsource.1 ?_).symm, fun htext => (htarget.1 ?_).symm⟩
    · exact (hname.name_eq_iff _ hs _ (key_mem_keys hr)).2 htext.symm
    · exact (hname.name_eq_iff _ ht _ (key_mem_keys hr)).2 htext.symm

theorem TellsApart.keptApart (h : m.TellsApart) : m.KeptApart := by
  obtain ⟨name, hname⟩ := m.exists_drawnBy
  have hmem : ∀ k ∈ m.resources.map (·.key), k ∈ m.keys :=
    List.forall_mem_map.2 fun _ => key_mem_keys
  have htext : ∀ k ∈ m.resources.map (·.key), ∀ k' ∈ m.keys, k.text = k'.text → k = k' :=
    List.forall_mem_map.2 h.eq_of_text_eq
  -- Keys of one entity and keys of one name have one text.
  have hentities := List.Nodup.map_on (f := ResourceKey.entity) (fun k hk k' hk' he =>
    htext k hk k' (hmem k' hk') (ResourceKey.text_eq_of_entity_eq he)) h.nodup
  have hiff : ∀ k ∈ m.resources.map (·.key), ∀ k' ∈ m.keys, name k' = name k ↔ k' = k := by
    intro k hk k' hk'
    refine ⟨fun he => ?_, fun he => he ▸ rfl⟩
    exact (htext k hk k' hk' ((hname.name_eq_iff k' hk' k (hmem k hk)).1 he).symm).symm
  refine ⟨?_, ?_, ?_⟩
  · exact entities_eq_iff.2 hentities
  · rw [hname.ids]
    exact h.nodup.map_on fun k hk k' hk' he => (hiff k' hk' k (hmem k hk)).1 he
  · rw [hname.zip_nodes, hname.zip_edges, List.forall_mem_map]
    intro q hq
    obtain ⟨hs, ht⟩ := ends_mem_keys hq
    rw [List.forall_mem_map]
    intro r hr
    have hr := List.mem_map_of_mem (f := Resource.key) hr
    exact ⟨hiff _ hr _ hs, hiff _ hr _ ht⟩

/-- Keys without slashes in their namespaces and kinds differ in their texts. -/
theorem tellsApart_of_plain (h : (m.resources.map (·.key)).Nodup)
    (hplain : ∀ k ∈ m.keys, k.Plain) : m.TellsApart :=
  ⟨h, fun _ hr k hk => ResourceKey.text_inj (hplain _ (key_mem_keys hr)) (hplain k hk)⟩

/-- What the graph and the diagram make of resources, and when they keep them apart. -/
structure ShowsResources (m : Manifests) : Prop where
  entities : m.graph.entities = (firsts (·.key.entity) m.resources).map (·.entityNode)
  merged : ∀ r ∈ m.resources, ∀ s ∈ m.resources, r.key.entity = s.key.entity ↔
    r.key = s.key ∨ r.kind ∉ knownKinds ∧ s.kind ∉ knownKinds ∧
      r.effectiveNamespace = s.effectiveNamespace ∧
      r.kind ++ "/" ++ r.name = s.kind ++ "/" ++ s.name
  drawn : ∃ name, m.DrawnBy name
  kept : m.KeptApart ↔ m.TellsApart
  plain : (m.resources.map (·.key)).Nodup → (∀ k ∈ m.keys, k.Plain) → m.KeptApart

/-- The graph merges two resources just if their kinds are not known and the texts of kind and name
are the same; the diagram merges two keys just if their texts are the same. So all resources are
kept apart just if their keys differ and the text of each of them is that of no other key, and this
is so where no namespace and no kind has a slash. -/
theorem showsResources (m : Manifests) : m.ShowsResources where
  entities := m.entities_graph
  merged _ _ _ _ := ResourceKey.entity_eq_iff
  drawn := m.exists_drawnBy
  kept := ⟨KeptApart.tellsApart, TellsApart.keptApart⟩
  plain h hplain := (tellsApart_of_plain h hplain).keptApart

/-- Two resources whose keys differ in where a slash divides kind and name are extracted as one
entity and drawn with one identifier. -/
theorem resources_merged :
    let a : Resource := ⟨"c", "a/b", none, [], .other, "m.yaml", 0⟩
    let b : Resource := ⟨"b/c", "a", none, [], .other, "m.yaml", 1⟩
    let m := Manifests.ofResources [a, b]
    (m.resources.map (·.key)).Nodup ∧ a.key.entity = b.key.entity ∧
      m.graph.entities = [a.entityNode] ∧ m.diagram.nodes.map (·.id) = ["c", "c"] := by
  decide +kernel

end Manifests

end Atlas.Kubernetes
