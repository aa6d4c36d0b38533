import Atlas.Proofs.Graph

/-!
# What steps add to a graph

A step that places an entity adds no relation, and one that adds a relation puts it behind the
others, so a graph that was built by several such steps has what each of them adds, in their order
(`Gains.foldl`, `WellFormed.relations_foldl_relate`). Relations leave the extracted entities as they
are (`WellFormed.entities_foldl_relate`). Dangling becomes what is the end of one of them and was
not mentioned before (`WellFormed.mem_dangling_foldl_relate`). Before there are relations nothing is
dangling, and nodes that are added one after another are kept but for those of an entity that is
there already (`extracts_foldl_addNew`). Nor is anything dangling where relations only join entities
that are there, whatever is extracted between them (`Grows`).

A step that adds a node extracts its entity wherever that stands, and one that makes sure of an
entity does so only where it is the first to mention it (`WellFormed.mem_extracted_step`), so what a
run extracts depends on the order of its steps just as far as these are concerned
(`extracted_exact`).

The relations that start at a place are walked from the newest to the oldest and turned around
(`outgoing_eq`), so those of an entity are answered as they stand among all relations
(`relations_answered`).
-/

set_option linter.unusedSectionVars false

namespace Atlas.Graph

variable {g : Graph}

namespace WellFormed

/-! ## Relations -/

theorem relations_place (h : g.WellFormed) (n : EntityNode) :
    (g.place n).2.relations = g.relations :=
  h.relations_eq (h.extends_place n).mentioned (links_place g n)

theorem relations_addNew (h : g.WellFormed) (n : EntityNode) :
    (g.addNew n).relations = g.relations := by
  refine h.relations_eq (h.extends_addNew n).mentioned ?_
  rcases h.add_cases n with ⟨-, ha⟩ | ⟨i, m, -, -, -, ha⟩ | ⟨i, m, -, -, -, ha⟩
  · rw [Graph.addNew, ha, Graph.push]
  · rw [Graph.addNew, ha, Graph.fill]
  · rw [Graph.addNew, ha]

theorem foldl_relate (h : g.WellFormed) (rs : List Relation) :
    (rs.foldl Graph.relate g).WellFormed := by
  induction rs generalizing g with
  | nil => exact h
  | cons r rs ih => exact ih (h.relate r)

theorem relations_foldl_relate (h : g.WellFormed) (rs : List Relation) :
    (rs.foldl Graph.relate g).relations = g.relations ++ rs := by
  induction rs generalizing g with
  | nil => exact (List.append_nil _).symm
  | cons r rs ih =>
    rw [List.foldl_cons, ih (h.relate r), h.relations_relate, List.append_assoc,
      List.singleton_append]

/-- A relation between entities that are mentioned adds no node. -/
theorem nodes_relate (h : g.WellFormed) {r : Relation} (hs : r.source ∈ g.mentioned)
    (ht : r.target ∈ g.mentioned) : (g.relate r).nodes = g.nodes := by
  have hplace {e : Entity} (he : e ∈ g.mentioned) :
      (g.place { entity := e, dangling := true }).2 = g := by
    cases hi : g.index? e with
    | some i => rw [place_of_some hi]
    | none => exact absurd he (h.index?_eq_none.1 hi)
  have hnodes : (g.relate r).nodes = ((g.place { entity := r.source, dangling := true }).2.place
      { entity := r.target, dangling := true }).2.nodes := rfl
  rw [hnodes, hplace hs, hplace ht]

/-! ## Extracted entities -/

/-- An entity that is placed as the end of a relation is not extracted by that. -/
theorem entities_place {n : EntityNode} (hn : n.dangling = true) :
    (g.place n).2.entities = g.entities := by
  cases hi : g.index? n.entity with
  | some i => rw [place_of_some hi]
  | none =>
    rw [place_of_none hi, entities, Graph.push, List.filter_append,
      List.filter_cons_of_neg (by simp [hn]), List.filter_nil, List.append_nil, entities]

theorem entities_relate (g : Graph) (r : Relation) : (g.relate r).entities = g.entities := by
  have hp := entities_place (g := g) (n := { entity := r.source, dangling := true }) rfl
  rw [← hp]
  exact entities_place (n := { entity := r.target, dangling := true }) rfl

/-- Steps that leave the entities as they are may be taken in any number. -/
theorem entities_foldl {β : Type} {f : Graph → β → Graph}
    (hf : ∀ g b, (f g b).entities = g.entities) (g : Graph) (l : List β) :
    (l.foldl f g).entities = g.entities := by
  induction l generalizing g with
  | nil => rfl
  | cons b l ih => rw [List.foldl_cons, ih, hf]

theorem entities_foldl_relate (g : Graph) (rs : List Relation) :
    (rs.foldl Graph.relate g).entities = g.entities :=
  entities_foldl entities_relate g rs

theorem entitiesOfKind_eq (g : Graph) (k : EntityKind) :
    g.entitiesOfKind k = g.entities.filter (·.entity.kind = k) := by
  rw [entitiesOfKind, entities, List.filter_filter]
  exact List.filter_congr fun n _ => Bool.and_comm _ _

theorem entitiesOfKind_relate (g : Graph) (r : Relation) (k : EntityKind) :
    (g.relate r).entitiesOfKind k = g.entitiesOfKind k := by
  rw [entitiesOfKind_eq, entities_relate, ← entitiesOfKind_eq]

/-- An entry that is left out may be exchanged for another that is. -/
theorem filter_set {α : Type} {p : α → Bool} {l : List α} {i : ℕ} {a b : α} (hb : l[i]? = some b)
    (hpb : p b = false) (hpa : p a = false) : (l.set i a).filter p = l.filter p := by
  induction l generalizing i with
  | nil => rfl
  | cons c l ih =>
    cases i with
    | zero =>
      obtain rfl : c = b := by simpa using hb
      rw [List.set_cons_zero, List.filter_cons_of_neg (by simp [hpa]),
        List.filter_cons_of_neg (by simp [hpb])]
    | succ i => rw [List.set_cons_succ, List.filter_cons, List.filter_cons, ih hb]

/-- An entity of another kind changes nothing. -/
theorem entitiesOfKind_addNew (h : g.WellFormed) {n : EntityNode} {k : EntityKind}
    (hn : n.entity.kind ≠ k) : (g.addNew n).entitiesOfKind k = g.entitiesOfKind k := by
  have hskip : ∀ m : EntityNode, m.entity = n.entity →
      (!m.dangling && decide (m.entity.kind = k)) = false := fun m hm => by simp [hm, hn]
  rcases h.add_cases n with ⟨-, ha⟩ | ⟨i, m, hi, hm, -, ha⟩ | ⟨i, m, -, -, -, ha⟩
  · rw [Graph.addNew, ha, entitiesOfKind, Graph.push, List.filter_append,
      List.filter_cons_of_neg (by simp [hskip n rfl]), List.filter_nil, List.append_nil,
      entitiesOfKind]
  · have hmn : m.entity = n.entity := by
      obtain ⟨m', hm', he⟩ := h.index?_eq_some.1 hi
      rw [hm] at hm'
      exact Option.some.inj hm' ▸ he
    rw [Graph.addNew, ha, entitiesOfKind, Graph.fill, entitiesOfKind]
    exact filter_set hm (hskip m hmn) (hskip n rfl)
  · rw [addNew_eq_self ha]

/-- Where nothing is dangling, all that is mentioned is extracted. -/
theorem map_entity_entities (hg : g.dangling = []) : g.entities.map (·.entity) = g.mentioned := by
  have hall : g.entities = g.nodes := by
    rw [dangling, List.map_eq_nil_iff, List.filter_eq_nil_iff] at hg
    exact List.filter_eq_self.2 fun n hn => by simpa using hg n hn
  rw [hall, mentioned]

/-! ## Dangling entities -/

theorem mem_dangling_place (h : g.WellFormed) {n : EntityNode} (hn : n.dangling = true)
    (e : Entity) :
    e ∈ (g.place n).2.dangling ↔ e ∈ g.dangling ∨ e = n.entity ∧ e ∉ g.mentioned := by
  cases hi : g.index? n.entity with
  | some i =>
    rw [place_of_some hi]
    have hmem := h.indexed.mem hi
    constructor
    · exact Or.inl
    · rintro (he | ⟨rfl, he⟩)
      · exact he
      · exact absurd hmem he
  | none =>
    have hmem := h.index?_eq_none.1 hi
    have hpush : (g.push n).dangling = g.dangling ++ [n.entity] := by
      simp [dangling, Graph.push, hn]
    rw [place_of_none hi, hpush, List.mem_append, List.mem_singleton]
    exact or_congr_right ⟨fun he => ⟨he, he ▸ hmem⟩, fun he => he.1⟩

/-- A relation leaves those of its ends dangling that were not mentioned before. -/
theorem mem_dangling_relate (h : g.WellFormed) (r : Relation) (e : Entity) :
    e ∈ (g.relate r).dangling ↔
      e ∈ g.dangling ∨ (e = r.source ∨ e = r.target) ∧ e ∉ g.mentioned := by
  have hlast := (h.place { entity := r.source, dangling := true }).mem_dangling_place
    (n := { entity := r.target, dangling := true }) rfl e
  have hrelate : e ∈ (g.relate r).dangling ↔ _ := hlast
  rw [hrelate, h.mem_dangling_place rfl, h.mentioned_place, mem_concatNew]
  by_cases hm : e ∈ g.mentioned <;> by_cases hs : e = r.source <;> simp [hm, hs]

theorem mem_mentioned_relate (h : g.WellFormed) (r : Relation) (e : Entity) :
    e ∈ (g.relate r).mentioned ↔ e ∈ g.mentioned ∨ e = r.source ∨ e = r.target := by
  rw [h.mentioned_relate, mem_concatNew, mem_concatNew, or_assoc]

/-- Of the ends of some relations those are left dangling that were not mentioned before. -/
theorem mem_dangling_foldl_relate (h : g.WellFormed) (rs : List Relation) (e : Entity) :
    e ∈ (rs.foldl Graph.relate g).dangling ↔
      e ∈ g.dangling ∨ (∃ r ∈ rs, e = r.source ∨ e = r.target) ∧ e ∉ g.mentioned := by
  induction rs generalizing g with
  | nil => simp
  | cons r rs ih =>
    rw [List.foldl_cons, ih (h.relate r), h.mem_dangling_relate, h.mem_mentioned_relate]
    simp only [List.mem_cons, exists_eq_or_imp]
    by_cases hm : e ∈ g.mentioned <;> by_cases hr : e = r.source ∨ e = r.target <;> simp [hm, hr]

end WellFormed

/-! ## Steps -/

/-- The entities that a step gives a place to for themselves. -/
def Step.placed : Step → List Entity
  | .add n => [n.entity]
  | .ensure e => [e]
  | .relate _ => []

/-- The relations that a step adds. -/
def Step.relations : Step → List Relation
  | .relate r => [r]
  | _ => []

theorem flatMap_placed_add (ns : List EntityNode) :
    (ns.map Step.add).flatMap Step.placed = ns.map (·.entity) := by
  rw [List.flatMap_map]
  exact (List.map_eq_flatMap ..).symm

theorem flatMap_placed_relate (rs : List Relation) :
    (rs.map Step.relate).flatMap Step.placed = [] :=
  List.flatMap_eq_nil_iff.2 (List.forall_mem_map.2 fun _ _ => rfl)

theorem flatMap_relations_add (ns : List EntityNode) :
    (ns.map Step.add).flatMap Step.relations = [] :=
  List.flatMap_eq_nil_iff.2 (List.forall_mem_map.2 fun _ _ => rfl)

theorem flatMap_relations_relate (rs : List Relation) :
    (rs.map Step.relate).flatMap Step.relations = rs := by
  rw [List.flatMap_map]
  exact List.flatMap_singleton' rs

namespace WellFormed

theorem relations_step (h : g.WellFormed) :
    ∀ s : Step, (g.step s).relations = g.relations ++ s.relations
  | .add n => (h.relations_addNew n).trans (List.append_nil _).symm
  | .ensure e => (h.relations_place { entity := e }).trans (List.append_nil _).symm
  | .relate r => h.relations_relate r

theorem relations_run (h : g.WellFormed) (steps : List Step) :
    (g.run steps).relations = g.relations ++ steps.flatMap Step.relations := by
  induction steps generalizing g with
  | nil => exact (List.append_nil _).symm
  | cons s steps ih =>
    have hrest := ih (h.step s)
    rwa [h.relations_step, List.append_assoc, ← List.flatMap_cons] at hrest

end WellFormed

/-- What is mentioned was placed by a step or is the end of a relation. -/
theorem mem_mentioned_run_empty (steps : List Step) (e : Entity) :
    e ∈ (run empty steps).mentioned ↔
      e ∈ steps.flatMap Step.placed ∨
        ∃ r ∈ (run empty steps).relations, e = r.source ∨ e = r.target := by
  have hmentioned : (run empty steps).mentioned = firsts id (steps.flatMap Step.mentions) := by
    rw [wellFormed_empty.mentioned_run steps]
    exact foldl_concatNew id _
  have hmem := mem_map_firsts id (steps.flatMap Step.mentions) e
  rw [List.map_id, List.map_id, ← hmentioned] at hmem
  have hrelations : (run empty steps).relations = steps.flatMap Step.relations :=
    wellFormed_empty.relations_run steps
  have hstep : ∀ s : Step, e ∈ s.mentions ↔
      e ∈ s.placed ∨ ∃ r ∈ s.relations, e = r.source ∨ e = r.target := by
    intro s
    cases s <;> simp [Step.mentions, Step.placed, Step.relations]
  rw [hmem, hrelations]
  simp only [List.mem_flatMap, hstep]
  constructor
  · rintro ⟨s, hs, he | ⟨r, hr, he⟩⟩
    · exact Or.inl ⟨s, hs, he⟩
    · exact Or.inr ⟨r, ⟨s, hs, hr⟩, he⟩
  · rintro (⟨s, hs, he⟩ | ⟨r, ⟨s, hs, hr⟩, he⟩)
    · exact ⟨s, hs, Or.inl he⟩
    · exact ⟨s, hs, Or.inr ⟨r, hr, he⟩⟩

/-! ## What a run extracts -/

/-- The keys of the extracted entities. -/
def extracted (g : Graph) : List Entity :=
  g.entities.map (·.entity)

/-- The entity that a step extracts wherever it stands : that of an added node, which may be marked
as dangling itself. -/
def Step.extracts : Step → List Entity
  | .add n => if n.dangling then [] else [n.entity]
  | _ => []

/-- Of the steps that mention the entity, the first one makes sure of it. -/
def EnsuredFirst (steps : List Step) (e : Entity) : Prop :=
  steps.find? (fun s => e ∈ s.mentions) = some (.ensure e)

theorem extracted_push (g : Graph) (n : EntityNode) :
    (g.push n).extracted = g.extracted ++ if n.dangling then [] else [n.entity] := by
  rw [extracted, entities, push, List.filter_append, List.map_append, extracted, entities]
  cases hd : n.dangling <;> simp [hd]

/-- A node in the place of a dangling one extracts its entity, and nothing else is lost. -/
theorem mem_extracted_fill {i : ℕ} {n m : EntityNode} (hm : g.nodes[i]? = some m)
    (hd : m.dangling = true) (e : Entity) :
    e ∈ (g.fill i n).extracted ↔ e ∈ g.extracted ∨ n.dangling = false ∧ e = n.entity := by
  obtain ⟨hi, rfl⟩ := List.getElem?_eq_some_iff.1 hm
  simp only [extracted, entities, fill, List.mem_map, List.mem_filter, Bool.not_eq_true']
  constructor
  · rintro ⟨k, ⟨hk, hkd⟩, rfl⟩
    rcases List.mem_or_eq_of_mem_set hk with hold | rfl
    · exact Or.inl ⟨k, ⟨hold, hkd⟩, rfl⟩
    · exact Or.inr ⟨hkd, rfl⟩
  · rintro (⟨k, ⟨hk, hkd⟩, rfl⟩ | ⟨hn, rfl⟩)
    · obtain ⟨j, hj, rfl⟩ := List.getElem_of_mem hk
      have hne : i ≠ j := by
        rintro rfl
        rw [hd] at hkd
        cases hkd
      refine ⟨_, ⟨List.mem_of_getElem? (i := j) ?_, hkd⟩, rfl⟩
      rw [List.getElem?_set_ne hne, List.getElem?_eq_getElem hj]
    · exact ⟨n, ⟨List.mem_set hi n, hn⟩, rfl⟩

namespace WellFormed

theorem mem_extracted_addNew (h : g.WellFormed) (n : EntityNode) (e : Entity) :
    e ∈ (g.addNew n).extracted ↔ e ∈ g.extracted ∨ n.dangling = false ∧ e = n.entity := by
  rcases h.add_cases n with ⟨-, ha⟩ | ⟨i, m, -, hm, hd, ha⟩ | ⟨i, m, hi, hm, hd, ha⟩
  · rw [Graph.addNew, ha, extracted_push, List.mem_append]
    cases hn : n.dangling <;> simp
  · rw [Graph.addNew, ha]
    exact mem_extracted_fill hm hd e
  · rw [addNew_eq_self ha]
    refine ⟨Or.inl, ?_⟩
    rintro (he | ⟨-, rfl⟩)
    · exact he
    · obtain ⟨k, hk, he⟩ := h.index?_eq_some.1 hi
      obtain rfl := Option.some.inj (hm.symm.trans hk)
      exact List.mem_map.2 ⟨m, List.mem_filter.2 ⟨List.mem_of_getElem? hm, by simp [hd]⟩, he⟩

/-- To make sure of an entity extracts it only where it was not mentioned before. -/
theorem mem_extracted_ensure (h : g.WellFormed) (e' e : Entity) :
    e ∈ (g.ensure e').2.extracted ↔ e ∈ g.extracted ∨ e' = e ∧ e ∉ g.mentioned := by
  cases hi : g.index? e' with
  | some i =>
    have hmem := h.indexed.mem hi
    rw [Graph.ensure, place_of_some hi]
    refine ⟨Or.inl, ?_⟩
    rintro (he | ⟨rfl, hnot⟩)
    · exact he
    · exact absurd hmem hnot
  | none =>
    have hmem := h.index?_eq_none.1 hi
    rw [Graph.ensure, place_of_none hi, extracted_push, List.mem_append]
    refine or_congr_right ⟨fun he => ?_, fun he => ?_⟩
    · obtain rfl : e = e' := by simpa using he
      exact ⟨rfl, hmem⟩
    · simp [he.1]

theorem mem_extracted_step (h : g.WellFormed) (s : Step) (e : Entity) :
    e ∈ (g.step s).extracted ↔
      e ∈ g.extracted ∨ e ∈ s.extracts ∨ s = .ensure e ∧ e ∉ g.mentioned := by
  cases s with
  | add n =>
    refine (h.mem_extracted_addNew n e).trans (or_congr_right ?_)
    cases hn : n.dangling <;> simp [Step.extracts, hn]
  | ensure e' =>
    refine (h.mem_extracted_ensure e' e).trans (or_congr_right ?_)
    simp [Step.extracts]
  | relate r =>
    have hr : (g.step (.relate r)).extracted = g.extracted :=
      congrArg (List.map _) (entities_relate g r)
    simp [hr, Step.extracts]

theorem mem_mentioned_step (h : g.WellFormed) (s : Step) (e : Entity) :
    e ∈ (g.step s).mentioned ↔ e ∈ g.mentioned ∨ e ∈ s.mentions := by
  rw [h.mentioned_step]
  cases s <;> simp [Step.mentions, mem_concatNew, or_assoc]

theorem mem_extracted_run (h : g.WellFormed) (steps : List Step) (e : Entity) :
    e ∈ (g.run steps).extracted ↔
      e ∈ g.extracted ∨ e ∈ steps.flatMap Step.extracts ∨
        EnsuredFirst steps e ∧ e ∉ g.mentioned := by
  induction steps generalizing g with
  | nil => simp [Graph.run, EnsuredFirst]
  | cons s steps ih =>
    have hrun : (g.run (s :: steps)).extracted = ((g.step s).run steps).extracted := rfl
    rw [hrun, ih (h.step s), h.mem_extracted_step, h.mem_mentioned_step, List.flatMap_cons,
      List.mem_append]
    -- Once a step has mentioned the entity, no later one can be the first to do so.
    by_cases he : e ∈ s.mentions
    · have hfirst : EnsuredFirst (s :: steps) e ↔ s = .ensure e := by simp [EnsuredFirst, he]
      rw [hfirst]
      tauto
    · have hfirst : EnsuredFirst (s :: steps) e ↔ EnsuredFirst steps e := by
        simp [EnsuredFirst, he]
      have hs : s ≠ .ensure e := by
        rintro rfl
        exact he List.mem_cons_self
      rw [hfirst]
      tauto

/-- What is mentioned is either extracted or dangling. -/
theorem mem_dangling_iff (h : g.WellFormed) (e : Entity) :
    e ∈ g.dangling ↔ e ∈ g.mentioned ∧ e ∉ g.extracted := by
  have hperm : (g.extracted ++ g.dangling).Perm g.mentioned := g.perm_entities_dangling
  have hdisjoint := List.disjoint_of_nodup_append (hperm.nodup_iff.2 h.indexed.nodup)
  rw [← hperm.mem_iff, List.mem_append]
  exact ⟨fun he => ⟨Or.inr he, fun hx => hdisjoint hx he⟩, fun he => he.1.resolve_left he.2⟩

end WellFormed

section Run

variable {steps steps' : List Step}

theorem mem_extracted_run_empty (steps : List Step) (e : Entity) :
    e ∈ (run empty steps).extracted ↔
      e ∈ steps.flatMap Step.extracts ∨ EnsuredFirst steps e := by
  rw [wellFormed_empty.mem_extracted_run]
  simp [extracted, entities, mentioned, empty]

theorem mem_dangling_run_empty (steps : List Step) (e : Entity) :
    e ∈ (run empty steps).dangling ↔ (e ∈ steps.flatMap Step.placed ∨
      ∃ r ∈ steps.flatMap Step.relations, e = r.source ∨ e = r.target) ∧
        e ∉ (run empty steps).extracted := by
  have hrelations : (run empty steps).relations = steps.flatMap Step.relations :=
    wellFormed_empty.relations_run steps
  rw [(wellFormed_empty.run steps).mem_dangling_iff, mem_mentioned_run_empty, hrelations]

theorem mem_placed_of_mem_extracted {e : Entity} (h : e ∈ (run empty steps).extracted) :
    e ∈ steps.flatMap Step.placed := by
  rcases (mem_extracted_run_empty steps e).1 h with he | he
  · obtain ⟨s, hs, he⟩ := List.mem_flatMap.1 he
    refine List.mem_flatMap.2 ⟨s, hs, ?_⟩
    cases s with
    | add n =>
      rw [Step.extracts] at he
      split at he
      · cases he
      · exact he
    | ensure e' => cases he
    | relate r => cases he
  · exact List.mem_flatMap.2 ⟨_, List.mem_of_find?_eq_some he, List.mem_singleton_self e⟩

/-- Extracted is what the steps place, and dangling all else that a relation ends at. -/
structure PlacedExtracted (steps : List Step) : Prop where
  extracted : ∀ e, e ∈ (run empty steps).extracted ↔ e ∈ steps.flatMap Step.placed
  dangling : ∀ e, e ∈ (run empty steps).dangling ↔ e ∉ steps.flatMap Step.placed ∧
    ∃ r ∈ steps.flatMap Step.relations, e = r.source ∨ e = r.target

theorem placedExtracted_iff (steps : List Step) :
    PlacedExtracted steps ↔ ∀ e ∈ steps.flatMap Step.placed,
      e ∈ steps.flatMap Step.extracts ∨ EnsuredFirst steps e := by
  simp only [← mem_extracted_run_empty]
  refine ⟨fun h e he => (h.extracted e).2 he, fun h => ?_⟩
  have hextracted : ∀ e, e ∈ (run empty steps).extracted ↔ e ∈ steps.flatMap Step.placed :=
    fun e => ⟨mem_placed_of_mem_extracted, h e⟩
  refine ⟨hextracted, fun e => ?_⟩
  rw [mem_dangling_run_empty, hextracted]
  by_cases he : e ∈ steps.flatMap Step.placed
  · simp only [he, not_true, and_false, false_and]
  · simp only [he, false_or, not_false_iff, and_true, true_and]

/-- The steps extract the same entities and leave the same ones dangling. -/
def SameExtracted (steps steps' : List Step) : Prop :=
  ∀ e, (e ∈ (run empty steps).extracted ↔ e ∈ (run empty steps').extracted) ∧
    (e ∈ (run empty steps).dangling ↔ e ∈ (run empty steps').dangling)

theorem sameExtracted_iff (h : steps.Perm steps') :
    SameExtracted steps steps' ↔ ∀ e, e ∉ steps.flatMap Step.extracts →
      (EnsuredFirst steps e ↔ EnsuredFirst steps' e) := by
  refine forall_congr' fun e => ?_
  have hextracts := (h.flatMap_right Step.extracts).mem_iff (a := e)
  have hplaced := (h.flatMap_right Step.placed).mem_iff (a := e)
  have hrelations : ∀ r, r ∈ steps.flatMap Step.relations ↔ r ∈ steps'.flatMap Step.relations :=
    fun r => (h.flatMap_right Step.relations).mem_iff
  simp only [mem_dangling_run_empty, mem_extracted_run_empty, ← hextracts, ← hplaced, ← hrelations]
  by_cases he : e ∈ steps.flatMap Step.extracts
  · simp [he]
  · rw [forall_prop_of_true he]
    simp only [he, false_or]
    exact and_iff_left_of_imp fun hfirst => by rw [hfirst]

end Run

/-- For any steps, from the empty graph on : an entity is extracted if a step adds a node of it, or
if the first step that mentions it makes sure of it; all else that is placed or that a relation ends
at is dangling. So what the steps place is extracted just if no entity of which they only make sure
is the end of a relation before that, and in another order the same steps extract the same entities
just if, of those that are not added, the same ones are first mentioned by a step that makes sure of
them. -/
theorem extracted_exact (steps : List Step) :
    let g := run empty steps
    (∀ e, e ∈ g.extracted ↔ e ∈ steps.flatMap Step.extracts ∨ EnsuredFirst steps e) ∧
      (∀ e, e ∈ g.dangling ↔ (e ∈ steps.flatMap Step.placed ∨
        ∃ r ∈ steps.flatMap Step.relations, e = r.source ∨ e = r.target) ∧ e ∉ g.extracted) ∧
      (PlacedExtracted steps ↔ ∀ e ∈ steps.flatMap Step.placed,
        e ∈ steps.flatMap Step.extracts ∨ EnsuredFirst steps e) ∧
      ∀ steps', steps.Perm steps' → (SameExtracted steps steps' ↔
        ∀ e, e ∉ steps.flatMap Step.extracts → (EnsuredFirst steps e ↔ EnsuredFirst steps' e)) :=
  ⟨mem_extracted_run_empty steps, mem_dangling_run_empty steps, placedExtracted_iff steps,
    fun _ h => sameExtracted_iff h⟩

/-- A service to which an ingress routes. -/
def routedService : Entity :=
  { kind := .service, name := "api", scope := some "default" }

/-- The relation of that ingress. -/
def routeToService : Relation :=
  { source := { kind := .ingress, name := "web", scope := some "default" }
    target := routedService
    kind := .routes }

/-- A service that is made sure of behind a relation stays dangling, and is extracted where the two
steps change places. -/
theorem ensured_behind_relation :
    (¬∀ steps : List Step, (∀ n, .add n ∈ steps → n.dangling = false) → PlacedExtracted steps) ∧
      ¬∀ steps steps' : List Step, steps.Perm steps' → SameExtracted steps steps' := by
  have hbehind : routedService ∉
      (run empty [.relate routeToService, .ensure routedService]).extracted := by decide
  constructor
  · intro h
    have hplaced := h [.relate routeToService, .ensure routedService] (by simp)
    exact hbehind ((hplaced.extracted routedService).2 (by decide))
  · intro h
    have hsame := h [.ensure routedService, .relate routeToService]
      [.relate routeToService, .ensure routedService] (.swap _ _ _)
    exact hbehind ((hsame routedService).1.1 (by decide))

/-! ## The relations of an entity -/

/-- A new link comes in front of the others at the place where it starts. -/
theorem outgoing_link (g : Graph) (l : Link) (i : ℕ) :
    (g.link l).outgoing i = if l.source = i then l :: g.outgoing i else g.outgoing i := by
  rw [outgoing, link, List.foldl_append, List.foldl_cons, List.foldl_nil, outgoing]

/-- The links at a place are those that start there, turned around. -/
theorem outgoing_eq (g : Graph) (i : ℕ) :
    g.outgoing i = (g.links.filter (·.source = i)).reverse := by
  obtain ⟨nodes, places, links⟩ := g
  induction links using List.reverseRecOn with
  | nil => rfl
  | append_singleton links l ih =>
    have hlink := outgoing_link ⟨nodes, places, links⟩ l i
    rw [ih] at hlink
    refine hlink.trans ?_
    rw [List.filter_append, List.reverse_append]
    by_cases hl : l.source = i <;> simp [hl]

namespace WellFormed

/-- A relation starts at an entity just if its link starts at the place of the entity. -/
theorem source_eq_iff (h : g.WellFormed) {e : Entity} {i : ℕ} (hi : g.index? e = some i)
    {l : Link} {r : Relation} (hr : g.relation? l = some r) : r.source = e ↔ l.source = i := by
  obtain ⟨hsource, -, -, -⟩ := relation?_eq_some.1 hr
  have hplace : g.index? r.source = some l.source := (h.indexed _ _).2 hsource
  constructor
  · rintro rfl
    exact Option.some.inj (hplace.symm.trans hi)
  · rintro rfl
    exact Option.some.inj (hsource.symm.trans ((h.indexed _ _).1 hi))

/-- Read from the place of an entity on, a link stands for the relation it stands for. -/
theorem relation?_of_index? (h : g.WellFormed) {e : Entity} {l : Link}
    (hi : g.index? e = some l.source) :
    g.relation? l = (g.nodes[l.target]?).map fun n => ⟨e, n.entity, l.kind, l.label⟩ := by
  have hsource : g.mentioned[l.source]? = some e := (h.indexed _ _).1 hi
  rw [relation?_eq, hsource, Option.bind_some, mentioned, List.getElem?_map, Option.map_map]
  rfl

/-- The relations of an entity are those of all relations that start there, in their order. -/
theorem relationsFrom_eq (h : g.WellFormed) (e : Entity) :
    g.relationsFrom e = g.relations.filter (·.source = e) := by
  cases hi : g.index? e with
  | none =>
    have hnone : ∀ r ∈ g.relations, ¬r.source = e := by
      rintro r hr rfl
      exact h.index?_eq_none.1 hi (mem_mentioned_of_mem_relations hr).1
    simpa [relationsFrom, hi] using hnone
  | some i =>
    simp only [relationsFrom, hi]
    rw [outgoing_eq, List.filterMap_reverse, List.reverse_reverse, relations,
      List.filter_filterMap, List.filterMap_filter]
    refine List.filterMap_congr fun l hl => ?_
    obtain ⟨r, hr⟩ := h.exists_relation? hl
    have hiff := h.source_eq_iff hi hr
    rw [hr, Option.filter_some]
    by_cases hs : l.source = i
    · rw [if_pos (decide_eq_true hs), if_pos (decide_eq_true (hiff.2 hs)),
        ← h.relation?_of_index? (hs ▸ hi), hr]
    · rw [if_neg (by simpa using hs), if_neg (by simpa [hiff] using hs)]

end WellFormed

/-- For any steps, from the empty graph on : the relations are those that the steps add, in their
order, the relations of an entity are those of them that start there, and the relations of a kind
those that are of it. -/
theorem relations_answered (steps : List Step) :
    let g := run empty steps
    g.relations = steps.flatMap Step.relations ∧
      (∀ e, g.relationsFrom e = g.relations.filter (·.source = e)) ∧
      ∀ k, g.relationsOfKind k = g.relations.filter (·.kind = k) := by
  intro g
  have h : g.WellFormed := wellFormed_empty.run steps
  exact ⟨wellFormed_empty.relations_run steps, h.relationsFrom_eq, fun _ => rfl⟩

/-! ## Relations between entities that are there -/

/-- From `g` to `g'` relations were added, and nothing else. -/
structure Relates (g : Graph) (rs : List Relation) (g' : Graph) : Prop where
  wellFormed : g'.WellFormed
  nodes : g'.nodes = g.nodes
  relations : g'.relations = g.relations ++ rs

namespace Relates

variable {g g' g'' : Graph} {rs rs' : List Relation}

theorem refl (h : g.WellFormed) : Relates g [] g :=
  ⟨h, rfl, (List.append_nil _).symm⟩

theorem trans (h : Relates g rs g') (h' : Relates g' rs' g'') : Relates g (rs ++ rs') g'' :=
  ⟨h'.wellFormed, h'.nodes.trans h.nodes, by rw [h'.relations, h.relations, List.append_assoc]⟩

theorem relate (h : g.WellFormed) {r : Relation} (hs : r.source ∈ g.mentioned)
    (ht : r.target ∈ g.mentioned) : Relates g [r] (g.relate r) :=
  ⟨h.relate r, h.nodes_relate hs ht, h.relations_relate r⟩

theorem mentioned (h : Relates g rs g') : g'.mentioned = g.mentioned := by
  rw [Graph.mentioned, Graph.mentioned, h.nodes]

theorem dangling (h : Relates g rs g') : g'.dangling = g.dangling := by
  rw [Graph.dangling, Graph.dangling, h.nodes]

/-- Steps that add certain relations between the entities of a graph may be taken one after
another. -/
theorem foldl {β : Type} {f : Graph → β → Graph} {added : β → List Relation} {l : List β}
    (h : g.WellFormed) (hf : ∀ g' b, b ∈ l → g'.WellFormed → g'.mentioned = g.mentioned →
      Relates g' (added b) (f g' b)) : Relates g (l.flatMap added) (l.foldl f g) := by
  induction l using List.reverseRecOn with
  | nil => exact .refl h
  | append_singleton l b ih =>
    have hl := ih fun g' b' hb' => hf g' b' (List.mem_append_left _ hb')
    rw [List.foldl_append, List.foldl_cons, List.foldl_nil, List.flatMap_append,
      List.flatMap_singleton]
    exact hl.trans (hf _ b List.mem_concat_self hl.wellFormed hl.mentioned)

end Relates

theorem WellFormed.has_iff (h : g.WellFormed) {e : Entity} : g.has e ↔ e ∈ g.mentioned := by
  rw [has, ← Option.ne_none_iff_isSome, Ne, h.index?_eq_none, not_not]

/-! ## Relations of a kind -/

/-- The steps of `f` keep graphs well-formed, and each puts certain relations of a kind behind those
that are there. -/
def Gains {β : Type} (k : RelationKind) (f : Graph → β → Graph)
    (added : β → List Relation) : Prop :=
  ∀ g b, g.WellFormed →
    (f g b).WellFormed ∧ (f g b).relationsOfKind k = g.relationsOfKind k ++ added b

/-- Several steps put their relations behind one another. -/
theorem Gains.foldl {β : Type} {k : RelationKind} {f : Graph → β → Graph}
    {added : β → List Relation} (h : Gains k f added) (hg : g.WellFormed) (l : List β) :
    (l.foldl f g).WellFormed ∧
      (l.foldl f g).relationsOfKind k = g.relationsOfKind k ++ l.flatMap added := by
  induction l generalizing g with
  | nil => exact ⟨hg, (List.append_nil _).symm⟩
  | cons b l ih =>
    obtain ⟨hb, hrel⟩ := h g b hg
    obtain ⟨hl, hrels⟩ := ih hb
    refine ⟨hl, ?_⟩
    rw [List.foldl_cons, hrels, hrel, List.append_assoc, List.flatMap_cons]

theorem gains_relate (k : RelationKind) : Gains k relate fun r => [r].filter (·.kind = k) :=
  fun g r h => by
    refine ⟨h.relate r, ?_⟩
    rw [relationsOfKind, h.relations_relate, List.filter_append, relationsOfKind]

/-! ## Adding extracted entities -/

/-- A node that is extracted leaves nothing dangling that was not. -/
theorem WellFormed.dangling_addNew_subset (h : g.WellFormed) {n : EntityNode}
    (hn : n.dangling = false) : (g.addNew n).dangling ⊆ g.dangling := by
  rcases h.add_cases n with ⟨-, ha⟩ | ⟨i, m, -, -, -, ha⟩ | ⟨i, m, -, -, -, ha⟩
  · rw [Graph.addNew, ha, dangling, Graph.push, List.filter_append,
      List.filter_cons_of_neg (by simp [hn]), List.filter_nil, List.append_nil, dangling]
    exact List.Subset.refl _
  · rw [Graph.addNew, ha, dangling, Graph.fill, dangling]
    refine List.map_subset _ fun k hk => ?_
    obtain ⟨hmem, hd⟩ := List.mem_filter.1 hk
    rcases List.mem_or_eq_of_mem_set hmem with hold | rfl
    · exact List.mem_filter.2 ⟨hold, hd⟩
    · rw [hn] at hd
      cases hd
  · rw [addNew_eq_self ha]
    exact List.Subset.refl _

/-- From `g` to `g'` extracted entities were added, and no relation. -/
structure Adds (g : Graph) (ns : List EntityNode) (g' : Graph) : Prop where
  wellFormed : g'.WellFormed
  relations : g'.relations = g.relations
  mentioned : ∀ e, e ∈ g'.mentioned ↔ e ∈ g.mentioned ∨ e ∈ ns.map (·.entity)
  dangling : g'.dangling ⊆ g.dangling

theorem WellFormed.adds_foldl (h : g.WellFormed) {ns : List EntityNode}
    (hns : ∀ n ∈ ns, n.dangling = false) : Adds g ns (ns.foldl Graph.addNew g) := by
  induction ns generalizing g with
  | nil => exact ⟨h, rfl, by simp, List.Subset.refl _⟩
  | cons n ns ih =>
    obtain ⟨hn, hns⟩ := List.forall_mem_cons.1 hns
    have hrest := ih (h.addNew n) hns
    refine ⟨hrest.wellFormed, ?_, fun e => ?_, fun e he => ?_⟩
    · rw [List.foldl_cons, hrest.relations, h.relations_addNew]
    · rw [List.foldl_cons, hrest.mentioned, h.mentioned_addNew, mem_concatNew, List.map_cons,
        List.mem_cons, or_assoc]
    · exact h.dangling_addNew_subset hn (hrest.dangling he)

/-! ## Nodes that are extracted one after another -/

namespace WellFormed

/-- Where nothing is dangling nothing is filled in : what is mentioned is a duplicate. -/
theorem add_cases_of_dangling (h : g.WellFormed) (hg : g.dangling = []) (n : EntityNode) :
    (n.entity ∉ g.mentioned ∧ g.add n = .ok (g.nodes.length, g.push n)) ∨
      n.entity ∈ g.mentioned ∧ g.add n = .error (.duplicate n.entity.label) := by
  rcases h.add_cases n with ⟨hi, ha⟩ | ⟨i, m, hi, hm, hd, -⟩ | ⟨i, m, hi, -, -, ha⟩
  · exact Or.inl ⟨h.index?_eq_none.1 hi, ha⟩
  · have hmem : m.entity ∈ g.dangling :=
      List.mem_map_of_mem (List.mem_filter.2 ⟨List.mem_of_getElem? hm, hd⟩)
    rw [hg] at hmem
    exact absurd hmem List.not_mem_nil
  · exact Or.inr ⟨h.indexed.mem hi, ha⟩

theorem dangling_push (hg : g.dangling = []) {n : EntityNode} (hn : n.dangling = false) :
    (g.push n).dangling = [] := by
  rw [dangling] at hg
  rw [dangling, Graph.push, List.filter_append, List.map_append, hg,
    List.filter_cons_of_neg (by simp [hn])]
  rfl

theorem dangling_addNew (h : g.WellFormed) (hg : g.dangling = []) {n : EntityNode}
    (hn : n.dangling = false) : (g.addNew n).dangling = [] := by
  rcases h.add_cases_of_dangling hg n with ⟨-, ha⟩ | ⟨-, ha⟩
  · rw [Graph.addNew, ha]
    exact dangling_push hg hn
  · rwa [addNew_eq_self ha]

theorem nodes_addNew (h : g.WellFormed) (hg : g.dangling = []) (n : EntityNode) :
    (g.addNew n).nodes = concatNew (·.entity) g.nodes n := by
  rcases h.add_cases_of_dangling hg n with ⟨hnew, ha⟩ | ⟨hold, ha⟩
  · rw [Graph.addNew, ha]
    exact (if_neg hnew).symm
  · rw [addNew_eq_self ha]
    exact (if_pos hold).symm

end WellFormed

/-- A graph of extracted nodes, without relations. Of the nodes of one entity the first is kept. -/
structure Extracts (ns : List EntityNode) (g : Graph) : Prop where
  wellFormed : g.WellFormed
  dangling : g.dangling = []
  nodes : g.nodes = firsts (·.entity) ns
  relations : g.relations = []

namespace Extracts

variable {ns : List EntityNode}

theorem mem_mentioned (h : Extracts ns g) (e : Entity) :
    e ∈ g.mentioned ↔ e ∈ ns.map (·.entity) := by
  rw [mentioned, h.nodes, mem_map_firsts]

theorem entities (h : Extracts ns g) : g.entities = firsts (·.entity) ns := by
  have hg := h.dangling
  rw [Graph.dangling, List.map_eq_nil_iff, List.filter_eq_nil_iff] at hg
  rw [Graph.entities, ← h.nodes]
  exact List.filter_eq_self.2 fun n hn => by simpa using hg n hn

theorem entitiesOfKind (h : Extracts ns g) (k : EntityKind) :
    g.entitiesOfKind k = firsts (·.entity) (ns.filter (·.entity.kind = k)) := by
  rw [WellFormed.entitiesOfKind_eq, h.entities]
  exact filter_firsts_key (·.entity) (·.kind = k) ns

end Extracts

theorem extracts_foldl_addNew {ns : List EntityNode} (hns : ∀ n ∈ ns, n.dangling = false) :
    Extracts ns (ns.foldl addNew empty) := by
  induction ns using List.reverseRecOn with
  | nil => exact ⟨wellFormed_empty, rfl, rfl, rfl⟩
  | append_singleton ns n ih =>
    obtain ⟨hns, hn⟩ := List.forall_mem_append.1 hns
    have h := ih hns
    rw [List.foldl_append, List.foldl_cons, List.foldl_nil]
    refine ⟨h.wellFormed.addNew n, ?_, ?_, ?_⟩
    · exact h.wellFormed.dangling_addNew h.dangling (hn n List.mem_cons_self)
    · rw [h.wellFormed.nodes_addNew h.dangling, h.nodes, firsts_append]
      rfl
    · rw [h.wellFormed.relations_addNew, h.relations]

/-! ## Extracted nodes with relations between them -/

/-- From `g` to `g'` new entities were extracted, and relations between entities that are there were
added; nothing is dangling. -/
structure Grows (g : Graph) (ns : List EntityNode) (rs : List Relation) (g' : Graph) : Prop where
  wellFormed : g'.WellFormed
  dangling : g'.dangling = []
  nodes : g'.nodes = g.nodes ++ ns
  relations : g'.relations = g.relations ++ rs

namespace Grows

variable {g' g'' : Graph} {ns ns' : List EntityNode} {rs rs' : List Relation}

theorem refl (h : g.WellFormed) (hg : g.dangling = []) : Grows g [] [] g :=
  ⟨h, hg, (List.append_nil _).symm, (List.append_nil _).symm⟩

theorem trans (h : Grows g ns rs g') (h' : Grows g' ns' rs' g'') :
    Grows g (ns ++ ns') (rs ++ rs') g'' :=
  ⟨h'.wellFormed, h'.dangling, by rw [h'.nodes, h.nodes, List.append_assoc],
    by rw [h'.relations, h.relations, List.append_assoc]⟩

theorem mentioned (h : Grows g ns rs g') : g'.mentioned = g.mentioned ++ ns.map (·.entity) := by
  rw [Graph.mentioned, Graph.mentioned, h.nodes, List.map_append]

/-- What is extracted is no duplicate if it was not mentioned. -/
theorem add (h : g.WellFormed) (hg : g.dangling = []) {n : EntityNode} (hn : n.dangling = false)
    (hnew : n.entity ∉ g.mentioned) :
    g.add n = .ok (g.nodes.length, g.push n) ∧ Grows g [n] [] (g.push n) := by
  have hadd : g.add n = .ok (g.nodes.length, g.push n) := by
    rcases h.add_cases_of_dangling hg n with ⟨-, ha⟩ | ⟨hold, -⟩
    · exact ha
    · exact absurd hold hnew
  have hpush := h.push (h.index?_eq_none.2 hnew)
  refine ⟨hadd, hpush, WellFormed.dangling_push hg hn, rfl, ?_⟩
  have hrelations := h.relations_addNew n
  rw [Graph.addNew, hadd] at hrelations
  rw [List.append_nil]
  exact hrelations

theorem foldl_relate (h : g.WellFormed) (hg : g.dangling = []) {rs : List Relation}
    (hrs : ∀ r ∈ rs, r.source ∈ g.mentioned ∧ r.target ∈ g.mentioned) :
    Grows g [] rs (rs.foldl Graph.relate g) := by
  have hrelates : Relates g (rs.flatMap fun r => [r]) (rs.foldl Graph.relate g) :=
    .foldl h fun g' r hr hg' hm => .relate hg' (hm ▸ (hrs r hr).1) (hm ▸ (hrs r hr).2)
  rw [List.flatMap_singleton'] at hrelates
  exact ⟨hrelates.wellFormed, hrelates.dangling.trans hg,
    hrelates.nodes.trans (List.append_nil _).symm, hrelates.relations⟩

end Grows

end Atlas.Graph
