import Atlas.Graph
import Atlas.Proofs.Firsts
import Mathlib.Data.List.Infix

/-!
# Entity graphs under construction

In a well-formed graph the places are those of the nodes and every link joins two nodes
(`WellFormed`). `Extends g g'` says that nothing of `g` is lost in `g'` : the entities of `g` come
first and at their places, the relations of `g` come first, and an entity that is extracted in `g`
keeps its node.

A graph is built by steps, each of which adds an extracted entity, makes sure of one, or adds a
relation. A step keeps the graph well-formed (`WellFormed.step`), extends it (`WellFormed.extends_step`)
and appends the entities it mentions for the first time (`WellFormed.mentioned_step`); so do all steps
together.
-/

set_option linter.unusedSectionVars false

namespace Atlas.Graph

/-- The entities that have a node, in the order of the nodes. -/
def mentioned (g : Graph) : List Entity :=
  g.nodes.map (·.entity)

/-- The places are those of the nodes, and every link joins two nodes. -/
structure WellFormed (g : Graph) : Prop where
  indexed : g.places.Indexes g.mentioned
  joined : ∀ l ∈ g.links, l.source < g.nodes.length ∧ l.target < g.nodes.length

/-- Nothing of `g` is lost in `g'`. -/
structure Extends (g g' : Graph) : Prop where
  mentioned : g.mentioned <+: g'.mentioned
  index? : ∀ {e i}, g.index? e = some i → g'.index? e = some i
  relations : g.relations <+: g'.relations
  extracted : ∀ {e n}, g.get? e = some n → n.dangling = false → g'.get? e = some n

theorem Extends.refl (g : Graph) : Extends g g :=
  ⟨List.prefix_rfl, id, List.prefix_rfl, fun h _ => h⟩

theorem Extends.trans {g g' g'' : Graph} (h : Extends g g') (h' : Extends g' g'') :
    Extends g g'' where
  mentioned := h.mentioned.trans h'.mentioned
  index? hi := h'.index? (h.index? hi)
  relations := h.relations.trans h'.relations
  extracted hn hd := h'.extracted (h.extracted hn hd) hd

theorem length_mentioned (g : Graph) : g.mentioned.length = g.nodes.length :=
  List.length_map _

theorem wellFormed_empty : empty.WellFormed :=
  ⟨Places.Indexes.nil, by simp [empty]⟩

/-! ## Relations -/

/-- A link stands for a relation between the entities at its places. -/
theorem relation?_eq (g : Graph) (l : Link) :
    g.relation? l = (g.mentioned[l.source]?).bind fun s =>
      (g.mentioned[l.target]?).map fun t => ⟨s, t, l.kind, l.label⟩ := by
  simp only [relation?, mentioned, List.getElem?_map]
  cases g.nodes[l.source]? <;> cases g.nodes[l.target]? <;> rfl

theorem relation?_eq_some {g : Graph} {l : Link} {r : Relation} :
    g.relation? l = some r ↔ g.mentioned[l.source]? = some r.source ∧
      g.mentioned[l.target]? = some r.target ∧ l.kind = r.kind ∧ l.label = r.label := by
  rw [relation?_eq]
  cases g.mentioned[l.source]? <;> cases g.mentioned[l.target]? <;> cases r <;> simp

theorem mem_mentioned_of_mem_relations {g : Graph} {r : Relation} (h : r ∈ g.relations) :
    r.source ∈ g.mentioned ∧ r.target ∈ g.mentioned := by
  obtain ⟨l, -, hl⟩ := List.mem_filterMap.1 h
  obtain ⟨hs, ht, -, -⟩ := relation?_eq_some.1 hl
  exact ⟨List.mem_of_getElem? hs, List.mem_of_getElem? ht⟩

namespace WellFormed

variable {g : Graph}

theorem lt_length_mentioned (h : g.WellFormed) {l : Link} (hl : l ∈ g.links) :
    l.source < g.mentioned.length ∧ l.target < g.mentioned.length := by
  rw [length_mentioned]
  exact h.joined l hl

/-- No link is without its relation. -/
theorem exists_relation? (h : g.WellFormed) {l : Link} (hl : l ∈ g.links) :
    ∃ r, g.relation? l = some r := by
  obtain ⟨hs, ht⟩ := h.lt_length_mentioned hl
  rw [relation?_eq, List.getElem?_eq_getElem hs, List.getElem?_eq_getElem ht]
  exact ⟨_, rfl⟩

theorem length_relations (h : g.WellFormed) : g.relations.length = g.relationCount :=
  List.filterMap_length_eq_length.2 fun _ hl => Option.isSome_iff_exists.2 (h.exists_relation? hl)

/-- Where entities and links are put behind those of a graph, its links stand for the relations
they stood for. -/
theorem relations_eq_append (h : g.WellFormed) {g' : Graph} {ls : List Link}
    (hm : g.mentioned <+: g'.mentioned) (hl : g'.links = g.links ++ ls) :
    g'.relations = g.relations ++ ls.filterMap g'.relation? := by
  obtain ⟨es, hes⟩ := hm
  have hold : g.links.filterMap g'.relation? = g.links.filterMap g.relation? := by
    refine List.filterMap_congr fun l hmem => ?_
    obtain ⟨hs, ht⟩ := h.lt_length_mentioned hmem
    rw [relation?_eq, relation?_eq, ← hes, List.getElem?_append_left hs,
      List.getElem?_append_left ht]
  rw [relations, hl, List.filterMap_append, hold, relations]

theorem relations_eq (h : g.WellFormed) {g' : Graph} (hm : g.mentioned <+: g'.mentioned)
    (hl : g'.links = g.links) : g'.relations = g.relations := by
  have hnil : g'.links = g.links ++ [] := by rw [hl, List.append_nil]
  simpa using h.relations_eq_append hm hnil

/-! ## Nodes -/

theorem index?_eq_some (h : g.WellFormed) {e : Entity} {i : ℕ} :
    g.index? e = some i ↔ ∃ n, g.nodes[i]? = some n ∧ n.entity = e := by
  rw [index?, h.indexed, mentioned, List.getElem?_map, Option.map_eq_some_iff]

theorem index?_eq_none (h : g.WellFormed) {e : Entity} :
    g.index? e = none ↔ e ∉ g.mentioned :=
  h.indexed.lookup_eq_none_iff

theorem mentioned_push (g : Graph) (n : EntityNode) :
    (g.push n).mentioned = g.mentioned ++ [n.entity] := by
  simp [push, mentioned]

theorem push (h : g.WellFormed) {n : EntityNode} (hn : g.index? n.entity = none) :
    (g.push n).WellFormed where
  indexed := by
    rw [mentioned_push, Graph.push, ← length_mentioned]
    exact h.indexed.concat hn
  joined l hl := by
    obtain ⟨hs, ht⟩ := h.joined l hl
    simp only [Graph.push, List.length_append, List.length_singleton]
    omega

theorem extends_push (h : g.WellFormed) {n : EntityNode} (hn : g.index? n.entity = none) :
    Extends g (g.push n) := by
  have hm : g.mentioned <+: (g.push n).mentioned := mentioned_push g n ▸ List.prefix_append _ _
  have hi : ∀ {e i}, g.index? e = some i → (g.push n).index? e = some i := fun {e i} he => by
    have hne : (e == n.entity) = false := by
      rw [beq_eq_false_iff_ne]
      rintro rfl
      simp [hn] at he
    rw [index?, Graph.push, List.lookup_cons, hne]
    exact he
  refine ⟨hm, hi, (h.relations_eq hm rfl).symm ▸ List.prefix_rfl, fun {e m} he _ => ?_⟩
  obtain ⟨i, hie, him⟩ := Option.bind_eq_some_iff.1 he
  rw [get?, hi hie, Option.bind_some, Graph.push,
    List.getElem?_append_left (List.getElem?_eq_some_iff.1 him).1, him]

/-- A node that takes the place of its entity leaves the entities as they are. -/
theorem mentioned_fill (h : g.WellFormed) {i : ℕ} {n : EntityNode}
    (hi : g.index? n.entity = some i) : (g.fill i n).mentioned = g.mentioned := by
  obtain ⟨hlt, he⟩ := List.getElem?_eq_some_iff.1 ((h.indexed n.entity i).1 hi)
  rw [fill, mentioned, List.map_set, ← he]
  exact List.set_getElem_self hlt

theorem fill (h : g.WellFormed) {i : ℕ} {n : EntityNode} (hi : g.index? n.entity = some i) :
    (g.fill i n).WellFormed where
  indexed := by
    rw [h.mentioned_fill hi]
    exact h.indexed
  joined l hl := by
    rw [Graph.fill, List.length_set]
    exact h.joined l hl

theorem extends_fill (h : g.WellFormed) {i : ℕ} {n m : EntityNode}
    (hi : g.index? n.entity = some i) (hm : g.nodes[i]? = some m) (hd : m.dangling = true) :
    Extends g (g.fill i n) := by
  have hpre : g.mentioned <+: (g.fill i n).mentioned := h.mentioned_fill hi ▸ List.prefix_rfl
  refine ⟨hpre, id, (h.relations_eq hpre rfl).symm ▸ List.prefix_rfl, fun {e m'} he hd' => ?_⟩
  obtain ⟨j, hj, hjm⟩ := Option.bind_eq_some_iff.1 he
  have hij : i ≠ j := by
    rintro rfl
    rw [hm] at hjm
    rw [Option.some.inj hjm, hd'] at hd
    exact Bool.false_ne_true hd
  have hj' : (g.fill i n).index? e = some j := hj
  rw [get?, hj', Option.bind_some, Graph.fill, List.getElem?_set_ne hij, hjm]

end WellFormed

/-! ## Placing an entity -/

theorem place_of_some {g : Graph} {n : EntityNode} {i : ℕ} (hi : g.index? n.entity = some i) :
    g.place n = (i, g) := by
  simp [place, hi]

theorem place_of_none {g : Graph} {n : EntityNode} (hn : g.index? n.entity = none) :
    g.place n = (g.nodes.length, g.push n) := by
  simp [place, hn]

theorem links_place (g : Graph) (n : EntityNode) : (g.place n).2.links = g.links := by
  unfold place
  split <;> rfl

namespace WellFormed

variable {g : Graph}

theorem place (h : g.WellFormed) (n : EntityNode) : (g.place n).2.WellFormed := by
  cases hi : g.index? n.entity with
  | some i => rwa [place_of_some hi]
  | none =>
    rw [place_of_none hi]
    exact h.push hi

theorem extends_place (h : g.WellFormed) (n : EntityNode) : Extends g (g.place n).2 := by
  cases hi : g.index? n.entity with
  | some i =>
    rw [place_of_some hi]
    exact Extends.refl g
  | none =>
    rw [place_of_none hi]
    exact h.extends_push hi

theorem mentioned_place (h : g.WellFormed) (n : EntityNode) :
    (g.place n).2.mentioned = concatNew id g.mentioned n.entity := by
  rw [concatNew, List.map_id, id]
  cases hi : g.index? n.entity with
  | some i => rw [place_of_some hi, if_pos (h.indexed.mem hi)]
  | none => rw [place_of_none hi, if_neg (h.index?_eq_none.1 hi), mentioned_push]

/-- An entity stands at the place it is given. -/
theorem getElem?_place (h : g.WellFormed) (n : EntityNode) :
    (g.place n).2.mentioned[(g.place n).1]? = some n.entity := by
  cases hi : g.index? n.entity with
  | some i =>
    rw [place_of_some hi]
    exact (h.indexed _ _).1 hi
  | none =>
    rw [place_of_none hi, mentioned_push, ← length_mentioned]
    exact List.getElem?_concat_length

/-! ## Adding a relation -/

theorem link (h : g.WellFormed) {l : Link} {r : Relation} (hl : g.relation? l = some r) :
    (g.link l).WellFormed where
  indexed := h.indexed
  joined := by
    obtain ⟨hs, ht, -, -⟩ := relation?_eq_some.1 hl
    have hends : l.source < g.nodes.length ∧ l.target < g.nodes.length := by
      rw [← length_mentioned]
      exact ⟨(List.getElem?_eq_some_iff.1 hs).1, (List.getElem?_eq_some_iff.1 ht).1⟩
    exact List.forall_mem_append.2 ⟨h.joined, List.forall_mem_singleton.2 hends⟩

theorem relations_link (h : g.WellFormed) {l : Link} {r : Relation}
    (hl : g.relation? l = some r) : (g.link l).relations = g.relations ++ [r] := by
  have hl' : (g.link l).relation? l = some r := hl
  have hm : g.mentioned <+: (g.link l).mentioned := List.prefix_rfl
  have hlinks : (g.link l).links = g.links ++ [l] := rfl
  rw [h.relations_eq_append hm hlinks]
  simp [hl']

theorem extends_link (h : g.WellFormed) {l : Link} {r : Relation}
    (hl : g.relation? l = some r) : Extends g (g.link l) :=
  ⟨List.prefix_rfl, id, h.relations_link hl ▸ List.prefix_append _ _, fun he _ => he⟩

/-- A relation is added in two steps : its ends get their places, and then a link between these. -/
theorem relate_eq_link (h : g.WellFormed) (r : Relation) :
    ∃ g' l, g.relate r = g'.link l ∧ g'.WellFormed ∧ Extends g g' ∧ g'.relations = g.relations ∧
      g'.relation? l = some r ∧
      g'.mentioned = concatNew id (concatNew id g.mentioned r.source) r.target := by
  let p := g.place { entity := r.source, dangling := true }
  let q := p.2.place { entity := r.target, dangling := true }
  have hp : p.2.WellFormed := h.place _
  have hq : q.2.WellFormed := hp.place _
  have hpq : Extends p.2 q.2 := hp.extends_place _
  have hgq : Extends g q.2 := (h.extends_place _).trans hpq
  have hlinks : q.2.links = g.links := (links_place p.2 _).trans (links_place g _)
  refine ⟨q.2, ⟨p.1, q.1, r.kind, r.label⟩, rfl, hq, hgq, h.relations_eq hgq.mentioned hlinks,
    relation?_eq_some.2 ⟨?_, hp.getElem?_place _, rfl, rfl⟩, ?_⟩
  · have hs := h.getElem?_place { entity := r.source, dangling := true }
    obtain ⟨es, hes⟩ := hpq.mentioned
    rw [← hes, List.getElem?_append_left (List.getElem?_eq_some_iff.1 hs).1]
    exact hs
  · rw [hp.mentioned_place, h.mentioned_place]

theorem relate (h : g.WellFormed) (r : Relation) : (g.relate r).WellFormed := by
  obtain ⟨g', l, he, hg', -, -, hl, -⟩ := h.relate_eq_link r
  exact he ▸ hg'.link hl

theorem extends_relate (h : g.WellFormed) (r : Relation) : Extends g (g.relate r) := by
  obtain ⟨g', l, he, hg', hext, -, hl, -⟩ := h.relate_eq_link r
  exact he ▸ hext.trans (hg'.extends_link hl)

theorem relations_relate (h : g.WellFormed) (r : Relation) :
    (g.relate r).relations = g.relations ++ [r] := by
  obtain ⟨g', l, he, hg', -, hrel, hl, -⟩ := h.relate_eq_link r
  rw [he, hg'.relations_link hl, hrel]

theorem mentioned_relate (h : g.WellFormed) (r : Relation) :
    (g.relate r).mentioned = concatNew id (concatNew id g.mentioned r.source) r.target := by
  obtain ⟨g', l, he, -, -, -, -, hm⟩ := h.relate_eq_link r
  rw [he]
  exact hm

/-! ## Adding an extracted entity -/

/-- What adding an entity can do : a new one gets a node behind the others, a dangling one the new
node in its place, and one that was extracted before is a duplicate. -/
theorem add_cases (h : g.WellFormed) (n : EntityNode) :
    (g.index? n.entity = none ∧ g.add n = .ok (g.nodes.length, g.push n)) ∨
      (∃ i m, g.index? n.entity = some i ∧ g.nodes[i]? = some m ∧ m.dangling = true ∧
        g.add n = .ok (i, g.fill i n)) ∨
      ∃ i m, g.index? n.entity = some i ∧ g.nodes[i]? = some m ∧ m.dangling = false ∧
        g.add n = .error (.duplicate n.entity.label) := by
  cases hi : g.index? n.entity with
  | none => exact Or.inl ⟨rfl, by simp [add, hi]⟩
  | some i =>
    obtain ⟨m, hm, -⟩ := h.index?_eq_some.1 hi
    cases hd : m.dangling with
    | true => exact Or.inr (Or.inl ⟨i, m, rfl, hm, hd, by simp [add, hi, hm, hd]⟩)
    | false => exact Or.inr (Or.inr ⟨i, m, rfl, hm, hd, by simp [add, hi, hm, hd]⟩)

theorem addNew (h : g.WellFormed) (n : EntityNode) : (g.addNew n).WellFormed := by
  rcases h.add_cases n with ⟨hi, ha⟩ | ⟨i, m, hi, -, -, ha⟩ | ⟨i, m, -, -, -, ha⟩
  · simpa [Graph.addNew, ha] using h.push hi
  · simpa [Graph.addNew, ha] using h.fill hi
  · simpa [Graph.addNew, ha] using h

theorem extends_addNew (h : g.WellFormed) (n : EntityNode) : Extends g (g.addNew n) := by
  rcases h.add_cases n with ⟨hi, ha⟩ | ⟨i, m, hi, hm, hd, ha⟩ | ⟨i, m, -, -, -, ha⟩
  · simpa [Graph.addNew, ha] using h.extends_push hi
  · simpa [Graph.addNew, ha] using h.extends_fill hi hm hd
  · simpa [Graph.addNew, ha] using Extends.refl g

theorem mentioned_addNew (h : g.WellFormed) (n : EntityNode) :
    (g.addNew n).mentioned = concatNew id g.mentioned n.entity := by
  rw [concatNew, List.map_id, id]
  rcases h.add_cases n with ⟨hi, ha⟩ | ⟨i, m, hi, -, -, ha⟩ | ⟨i, m, hi, -, -, ha⟩
  · rw [if_neg (h.index?_eq_none.1 hi), ← mentioned_push]
    simp [Graph.addNew, ha]
  · rw [if_pos (h.indexed.mem hi), ← h.mentioned_fill hi]
    simp [Graph.addNew, ha]
  · rw [if_pos (h.indexed.mem hi)]
    simp [Graph.addNew, ha]

/-- Only an entity that was extracted before is a duplicate. -/
theorem add_eq_error_iff (h : g.WellFormed) (n : EntityNode) (err : Error) :
    g.add n = .error err ↔ err = .duplicate n.entity.label ∧
      ∃ m, g.get? n.entity = some m ∧ m.dangling = false := by
  rcases h.add_cases n with ⟨hi, ha⟩ | ⟨i, m, hi, hm, hd, ha⟩ | ⟨i, m, hi, hm, hd, ha⟩
  · simp [ha, get?, hi]
  · simp [ha, get?, hi, hm, hd]
  · rw [ha, Except.error.injEq, eq_comm]
    exact ⟨fun he => ⟨he, m, by simp [get?, hi, hm], hd⟩, fun he => he.1⟩

end WellFormed

/-- A dangling entity that is added gets the new node where it stands. -/
theorem add_of_dangling {g : Graph} {n m : EntityNode} (hm : g.get? n.entity = some m)
    (hd : m.dangling = true) : ∃ i, g.index? n.entity = some i ∧ g.add n = .ok (i, g.fill i n) ∧
      (g.fill i n).get? n.entity = some n := by
  obtain ⟨i, hi, him⟩ := Option.bind_eq_some_iff.1 hm
  have hlt : i < g.nodes.length := (List.getElem?_eq_some_iff.1 him).1
  have hi' : (g.fill i n).index? n.entity = some i := hi
  refine ⟨i, hi, by simp [add, hi, him, hd], ?_⟩
  rw [get?, hi', Option.bind_some, fill, List.getElem?_set_self hlt]

theorem addNew_eq_self {g : Graph} {n : EntityNode} {err : Error} (h : g.add n = .error err) :
    g.addNew n = g := by
  simp [addNew, h]

/-- Extracted and dangling entities together are all entities. -/
theorem perm_entities_dangling (g : Graph) :
    (g.entities.map (·.entity) ++ g.dangling).Perm g.mentioned := by
  rw [entities, dangling, mentioned, ← List.map_append]
  refine List.Perm.map _ (List.perm_append_comm.trans ?_)
  simpa using List.filter_append_perm (fun n : EntityNode => n.dangling) g.nodes

/-! ## Steps -/

/-- One step in building a graph. -/
inductive Step where
  | add (node : EntityNode)
  | ensure (entity : Entity)
  | relate (relation : Relation)

/-- The entities that a step mentions, in order. -/
def Step.mentions : Step → List Entity
  | add n => [n.entity]
  | ensure e => [e]
  | relate r => [r.source, r.target]

/-- The graph after a step. -/
def step (g : Graph) : Step → Graph
  | .add n => g.addNew n
  | .ensure e => (g.ensure e).2
  | .relate r => g.relate r

/-- The graph after some steps. -/
def run (g : Graph) (steps : List Step) : Graph :=
  steps.foldl step g

namespace WellFormed

variable {g : Graph}

theorem step (h : g.WellFormed) : ∀ s : Step, (g.step s).WellFormed
  | .add n => h.addNew n
  | .ensure _ => h.place _
  | .relate r => h.relate r

theorem extends_step (h : g.WellFormed) : ∀ s : Step, Extends g (g.step s)
  | .add n => h.extends_addNew n
  | .ensure _ => h.extends_place _
  | .relate r => h.extends_relate r

/-- A step puts the entities it mentions for the first time behind the others. -/
theorem mentioned_step (h : g.WellFormed) :
    ∀ s : Step, (g.step s).mentioned = s.mentions.foldl (concatNew id) g.mentioned
  | .add n => h.mentioned_addNew n
  | .ensure _ => h.mentioned_place _
  | .relate r => h.mentioned_relate r

theorem run (h : g.WellFormed) (steps : List Step) : (g.run steps).WellFormed := by
  induction steps generalizing g with
  | nil => exact h
  | cons s steps ih => exact ih (h.step s)

theorem extends_run (h : g.WellFormed) (steps : List Step) : Extends g (g.run steps) := by
  induction steps generalizing g with
  | nil => exact Extends.refl g
  | cons s steps ih => exact (h.extends_step s).trans (ih (h.step s))

theorem mentioned_run (h : g.WellFormed) (steps : List Step) :
    (g.run steps).mentioned = (steps.flatMap Step.mentions).foldl (concatNew id) g.mentioned := by
  induction steps generalizing g with
  | nil => rfl
  | cons s steps ih =>
    rw [List.flatMap_cons, List.foldl_append, ← h.mentioned_step s]
    exact ih (h.step s)

end WellFormed

/-- For any steps, from the empty graph on : every entity has one node, which the places lead to;
every relation joins two entities with a node; the nodes are in the order in which the steps first
mention their entities, and are split into the extracted and the dangling ones. Adding an entity
fails exactly if it was extracted before, and then nothing changes; if it was dangling, it keeps its
place and all relations, and whatever follows it has the node that was added. No further steps lose
a node, a place or a relation. -/
theorem invariant_run_empty (steps : List Step) :
    let g := run empty steps
    g.mentioned.Nodup ∧
      (∀ e i, g.index? e = some i ↔ g.mentioned[i]? = some e) ∧
      g.relations.length = g.relationCount ∧
      (∀ r ∈ g.relations, r.source ∈ g.mentioned ∧ r.target ∈ g.mentioned) ∧
      g.mentioned = firsts id (steps.flatMap Step.mentions) ∧
      (g.entities.map (·.entity) ++ g.dangling).Perm g.mentioned ∧
      g.entities.Sublist g.nodes ∧ g.dangling.Sublist g.mentioned ∧
      (∀ n err, g.add n = .error err ↔ err = .duplicate n.entity.label ∧
        ∃ m, g.get? n.entity = some m ∧ m.dangling = false) ∧
      (∀ n err, g.add n = .error err → g.step (.add n) = g) ∧
      (∀ n m, n.dangling = false → g.get? n.entity = some m → m.dangling = true →
        ∃ i g', g.add n = .ok (i, g') ∧ g.index? n.entity = some i ∧
          g'.index? n.entity = some i ∧ g'.relations = g.relations ∧
          ∀ later, (run g' later).get? n.entity = some n) ∧
      ∀ later, Extends g (run g later) := by
  intro g
  have h : g.WellFormed := wellFormed_empty.run steps
  refine ⟨h.indexed.nodup, h.indexed, h.length_relations,
    fun r => mem_mentioned_of_mem_relations, ?_, g.perm_entities_dangling, List.filter_sublist,
    List.filter_sublist.map _, h.add_eq_error_iff, fun n err => addNew_eq_self, ?_, h.extends_run⟩
  · rw [wellFormed_empty.mentioned_run steps]
    exact foldl_concatNew id _
  · intro n m hn hm hd
    obtain ⟨i, hi, ha, hget⟩ := add_of_dangling hm hd
    have hpre : g.mentioned <+: (g.fill i n).mentioned := h.mentioned_fill hi ▸ List.prefix_rfl
    have hrel : (g.fill i n).relations = g.relations := h.relations_eq hpre rfl
    exact ⟨i, g.fill i n, ha, hi, hi, hrel,
      fun later => ((h.fill hi).extends_run later).extracted hget hn⟩

end Atlas.Graph
