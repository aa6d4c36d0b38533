import Atlas.Proofs.Docker.Dependencies
import Atlas.Proofs.Docker.Dockerfile
import Mathlib.Logic.Relation

/-!
# Stages in the graph

A file is shown if no earlier one has its path, and a stage if no earlier one of the file has its
label. The graph has just these (`grows_foldl_addDockerfile`). A stage is built on the first stage of
its file that is named like its base, in any case, if that one stands before it
(`Dockerfile.Sound.parentStage?_eq_some_iff`). No earlier stage can have the label of that one, since
a label that is no name has a blank, so what is inherited from is shown, and by its own name
(`Dockerfile.Sound.mem_shown`). All that is said of stages in the graph of a project follows
(`Project.stages_shown`).
-/

set_option linter.unusedSectionVars false

namespace Atlas.Docker

/-! ## Stages of a file -/

/-- The stage is named like that, in any case. -/
def Stage.IsNamed (s : Stage) (base : String) : Prop :=
  ∃ n ∈ s.name, Text.equalIgnoringCase n base = true

namespace Dockerfile

/-- The stages that are shown : of those with one label the first. -/
def shown (f : Dockerfile) : List Stage :=
  firsts Stage.label f.stages

/-- The stages are numbered, and their names have no blanks. -/
structure Sound (f : Dockerfile) : Prop where
  indices : f.stages.map (·.index) = List.range f.stages.length
  names : ∀ s ∈ f.stages, ∀ n ∈ s.name, ∀ c ∈ n.toList, Chars.isBlank c = false

theorem sound_read (path text : String) : (read path text).Sound := by
  have h := records_read path text
  have hbare : ∀ s ∈ statements text, StartsBare s.2 := fun s => startsBare_of_mem_statements
  exact ⟨h.indices, fun s hs => (h.stage_spec hbare hs).2⟩

/-- Of the stages of the file that are named like that, `t` is the first. -/
structure FirstNamed (f : Dockerfile) (base : String) (t : Stage) : Prop where
  mem : t ∈ f.stages
  isNamed : t.IsNamed base
  le : ∀ u ∈ f.stages, u.IsNamed base → t.index ≤ u.index

variable {f : Dockerfile}

namespace Sound

variable {s t : Stage} {i : ℕ}

theorem index_eq (h : f.Sound) (hs : f.stages[i]? = some s) : s.index = i := by
  have hi : (f.stages.map (·.index))[i]? = some s.index := by simp [hs]
  rw [h.indices, List.getElem?_range (List.getElem?_eq_some_iff.1 hs).1] at hi
  exact (Option.some.inj hi).symm

theorem getElem?_index (h : f.Sound) (hs : s ∈ f.stages) : f.stages[s.index]? = some s := by
  obtain ⟨i, hi⟩ := List.mem_iff_getElem?.1 hs
  rwa [h.index_eq hi]

theorem index_lt (h : f.Sound) (hs : s ∈ f.stages) : s.index < f.stages.length :=
  (List.getElem?_eq_some_iff.1 (h.getElem?_index hs)).1

theorem mem_take_iff (h : f.Sound) : t ∈ f.stages.take i ↔ t ∈ f.stages ∧ t.index < i := by
  rw [List.mem_take_iff_getElem]
  constructor
  · rintro ⟨j, hj, rfl⟩
    have hindex := h.index_eq (List.getElem?_eq_getElem (l := f.stages) (i := j) (by omega))
    exact ⟨List.getElem_mem _, by omega⟩
  · rintro ⟨ht, hi⟩
    have hlt := h.index_lt ht
    exact ⟨t.index, by omega, (List.getElem?_eq_some_iff.1 (h.getElem?_index ht)).2⟩

/-- A stage that has the label of a named one has its name. -/
theorem name_eq_of_label_eq (h : f.Sound) {u : Stage} (ht : t ∈ f.stages) {n : String}
    (hn : n ∈ t.name) (hlabel : u.label = t.label) : n ∈ u.name := by
  have htl : t.label = n := by simp [Stage.label, Option.mem_def.1 hn]
  cases hu : u.name with
  | some m =>
    have hul : u.label = m := by simp [Stage.label, hu]
    rw [← htl, ← hlabel, hul]
    rfl
  | none =>
    -- The label of a stage without a name has a blank, and names have none.
    have hul : u.label = "stage " ++ toString u.index := by simp [Stage.label, hu]
    have hblank : ' ' ∈ n.toList := by
      rw [← htl, ← hlabel, hul, String.toList_append, List.mem_append]
      exact Or.inl (by decide)
    have hbare := h.names t ht n hn ' ' hblank
    cases hbare

/-- The parent of a stage is the first stage that is named like its base, if that stands before
it. -/
theorem parentStage?_eq_some_iff (h : f.Sound) :
    parentStage? f s = some t ↔ f.FirstNamed s.base t ∧ t.index < s.index := by
  have hnamed : ∀ u : Stage, (u.name.any fun n => Text.equalIgnoringCase n s.base) = true ↔
      u.IsNamed s.base := fun u => by
    cases hu : u.name <;> simp [Stage.IsNamed, hu]
  rw [parentStage?, List.find?_eq_some_iff_getElem, hnamed]
  constructor
  · rintro ⟨hbase, i, hi, rfl, hfirst⟩
    obtain ⟨hmem, hlt⟩ := h.mem_take_iff.1 (List.getElem_mem hi)
    refine ⟨⟨hmem, hbase, fun u hu hub => ?_⟩, hlt⟩
    have hindex : ((f.stages.take s.index)[i]).index = i := by
      rw [List.getElem_take]
      exact h.index_eq (List.getElem?_eq_getElem _)
    by_contra hui
    have hu' := (List.getElem?_eq_some_iff.1 (h.getElem?_index hu)).2
    have hnot := hfirst u.index (by omega)
    rw [List.getElem_take, hu', Bool.not_eq_true', (hnamed u).2 hub] at hnot
    cases hnot
  · rintro ⟨ht, hlt⟩
    obtain ⟨hlen, hget⟩ := List.getElem?_eq_some_iff.1 (h.getElem?_index ht.mem)
    refine ⟨ht.isNamed, t.index, by simp; omega, by rw [List.getElem_take, hget], fun j hj => ?_⟩
    rw [List.getElem_take, Bool.not_eq_true', ← Bool.not_eq_true, hnamed]
    intro hj'
    have hle := ht.le _ (List.getElem_mem _) hj'
    rw [h.index_eq (List.getElem?_eq_getElem _)] at hle
    omega

/-- A stage has a parent if an earlier one is named like its base. -/
theorem exists_parentStage? (h : f.Sound)
    (hbase : ∃ u ∈ f.stages, u.index < s.index ∧ u.IsNamed s.base) :
    ∃ t, parentStage? f s = some t := by
  obtain ⟨u, hu, hlt, n, hn, hequal⟩ := hbase
  rw [← Option.isSome_iff_exists, parentStage?, List.find?_isSome]
  refine ⟨u, h.mem_take_iff.2 ⟨hu, hlt⟩, ?_⟩
  rw [Option.mem_def.1 hn]
  exact hequal

/-- The first stage of a name is shown. -/
theorem mem_shown (h : f.Sound) {base : String} (ht : f.FirstNamed base t) : t ∈ f.shown := by
  refine (mem_firsts_iff Stage.label).2 ⟨t.index, h.getElem?_index ht.mem, fun hlabel => ?_⟩
  obtain ⟨u, hu, hlabel⟩ := List.mem_map.1 hlabel
  obtain ⟨hu, hlt⟩ := h.mem_take_iff.1 hu
  obtain ⟨n, hn, hequal⟩ := ht.isNamed
  have hle := ht.le u hu ⟨n, h.name_eq_of_label_eq ht.mem hn hlabel, hequal⟩
  omega

end Sound

/-! ## Growth of the graph -/

/-- The node of the file. -/
def entityNode (f : Dockerfile) : EntityNode :=
  { entity := f.entity, attributes := [("base", f.baseImage)] }

/-- The node of a stage. -/
def stageNode (f : Dockerfile) (s : Stage) : EntityNode :=
  { entity := stageEntity f.path s, attributes := [("base", s.base)] }

/-- The file contains a stage. -/
def contains (f : Dockerfile) (s : Stage) : Relation :=
  ⟨f.entity, stageEntity f.path s, .contains, none⟩

/-- A stage of the file inherits from another. -/
def inherits (f : Dockerfile) (s t : Stage) : Relation :=
  ⟨stageEntity f.path s, stageEntity f.path t, .inherits, none⟩

/-- The relations that a stage gets. -/
def stageRelations (f : Dockerfile) (s : Stage) : List Relation :=
  f.contains s :: (parentStage? f s).toList.map (f.inherits s)

/-- The nodes of the file and of the stages that are shown. -/
def entityNodes (f : Dockerfile) : List EntityNode :=
  f.entityNode :: f.shown.map f.stageNode

/-- The relations that the stages get that are shown. -/
def shownRelations (f : Dockerfile) : List Relation :=
  f.shown.flatMap f.stageRelations

end Dockerfile

open Atlas.Graph

theorem stageEntity_eq_iff {path path' : String} {s s' : Stage} :
    stageEntity path s = stageEntity path' s' ↔ path = path' ∧ s.label = s'.label := by
  simp [stageEntity, and_comm]

theorem Dockerfile.entity_eq_iff {f f' : Dockerfile} : f.entity = f'.entity ↔ f.path = f'.path := by
  simp [Dockerfile.entity]

theorem Dockerfile.entity_ne_stageEntity (f : Dockerfile) (path : String) (s : Stage) :
    f.entity ≠ stageEntity path s := by
  simp [Dockerfile.entity, stageEntity]

section Growth

variable {g : Graph} {f : Dockerfile} {s : Stage}

theorem addStage_eq (f : Dockerfile) (g : Graph) (s : Stage) : addStage f g s =
    match g.add (f.stageNode s) with
    | .error _ => g
    | .ok (_, g) => (f.stageRelations s).foldl Graph.relate g := by
  unfold addStage Dockerfile.stageRelations
  cases parentStage? f s <;> rfl

theorem addDockerfile_eq (g : Graph) (f : Dockerfile) : addDockerfile g f =
    match g.add f.entityNode with
    | .error _ => g
    | .ok (_, g) => f.stages.foldl (addStage f) g :=
  rfl

theorem addStage_of_mem (h : g.WellFormed) (hg : g.dangling = [])
    (hs : stageEntity f.path s ∈ g.mentioned) : addStage f g s = g := by
  rcases h.add_cases_of_dangling hg (f.stageNode s) with ⟨hnew, -⟩ | ⟨-, ha⟩
  · exact absurd hs hnew
  · rw [addStage_eq, ha]

/-- A stage that is new gets its relations. -/
theorem grows_addStage (h : g.WellFormed) (hg : g.dangling = []) (hf : f.entity ∈ g.mentioned)
    (hs : stageEntity f.path s ∉ g.mentioned)
    (hparent : ∀ t ∈ parentStage? f s, stageEntity f.path t ∈ g.mentioned) :
    Grows g [f.stageNode s] (f.stageRelations s) (addStage f g s) := by
  obtain ⟨ha, hadded⟩ := Grows.add h hg (n := f.stageNode s) rfl hs
  rw [addStage_eq, ha]
  refine hadded.trans (.foldl_relate hadded.wellFormed hadded.dangling ?_)
  have hstage : stageEntity f.path s ∈ (g.push (f.stageNode s)).mentioned := by
    rw [hadded.mentioned]
    exact List.mem_append_right _ List.mem_cons_self
  rw [hadded.mentioned] at hstage ⊢
  refine List.forall_mem_cons.2 ⟨⟨List.mem_append_left _ hf, hstage⟩, ?_⟩
  refine List.forall_mem_map.2 fun t ht => ⟨hstage, List.mem_append_left _ (hparent t ?_)⟩
  exact Option.mem_toList.1 ht

/-- The stages of a new file get their relations, but for those that are not shown. -/
theorem grows_foldl_addStage (h : g.WellFormed) (hg : g.dangling = []) (hf : f.entity ∈ g.mentioned)
    (hnew : ∀ s, stageEntity f.path s ∉ g.mentioned) (hsound : f.Sound) {ss : List Stage}
    (hss : ss <+: f.stages) :
    Grows g ((firsts Stage.label ss).map f.stageNode)
      ((firsts Stage.label ss).flatMap f.stageRelations) (ss.foldl (addStage f) g) := by
  induction ss using List.reverseRecOn with
  | nil => exact .refl h hg
  | append_singleton ss s ih =>
    obtain ⟨rest, hrest⟩ := hss
    have hold := ih ⟨[s] ++ rest, by rw [← List.append_assoc, hrest]⟩
    have hmem : ∀ t, stageEntity f.path t ∈ (ss.foldl (addStage f) g).mentioned ↔
        t.label ∈ ss.map Stage.label := fun t => by
      rw [hold.mentioned, List.mem_append, or_iff_right (hnew t), ← mem_map_firsts Stage.label ss]
      simp [Dockerfile.stageNode, stageEntity]
    rw [List.foldl_append, List.foldl_cons, List.foldl_nil, firsts_concat]
    by_cases hs : s.label ∈ ss.map Stage.label
    · rw [if_pos hs, List.append_nil, addStage_of_mem hold.wellFormed hold.dangling ((hmem s).2 hs)]
      exact hold
    · rw [if_neg hs, List.map_append, List.flatMap_append, List.flatMap_singleton]
      refine hold.trans (grows_addStage hold.wellFormed hold.dangling ?_ (mt (hmem s).1 hs) ?_)
      · simp [hold.mentioned, hf]
      · -- What a stage inherits from stands before it.
        intro t ht
        have hindex : s.index = ss.length := hsound.index_eq (by simp [← hrest])
        have hbefore : t ∈ f.stages.take s.index := List.mem_of_find?_eq_some ht
        rw [hindex, ← hrest, List.append_assoc, List.take_left] at hbefore
        exact (hmem t).2 (List.mem_map_of_mem hbefore)

theorem addDockerfile_of_mem (h : g.WellFormed) (hg : g.dangling = [])
    (hf : f.entity ∈ g.mentioned) : addDockerfile g f = g := by
  rcases h.add_cases_of_dangling hg f.entityNode with ⟨hnew, -⟩ | ⟨-, ha⟩
  · exact absurd hf hnew
  · rw [addDockerfile_eq, ha]

/-- A new file comes with its stages. -/
theorem grows_addDockerfile (h : g.WellFormed) (hg : g.dangling = [])
    (hf : f.entity ∉ g.mentioned) (hnew : ∀ s, stageEntity f.path s ∉ g.mentioned)
    (hsound : f.Sound) : Grows g f.entityNodes f.shownRelations (addDockerfile g f) := by
  obtain ⟨ha, hadded⟩ := Grows.add h hg (n := f.entityNode) rfl hf
  rw [addDockerfile_eq, ha]
  refine hadded.trans (grows_foldl_addStage hadded.wellFormed hadded.dangling ?_ ?_ hsound
    List.prefix_rfl)
  · rw [hadded.mentioned]
    exact List.mem_append_right _ List.mem_cons_self
  · intro s
    rw [hadded.mentioned, List.mem_append, or_iff_right (hnew s), List.map_singleton,
      List.mem_singleton]
    exact (f.entity_ne_stageEntity f.path s).symm

end Growth

/-- The files that are shown : of those with one path the first. -/
def Project.files (p : Project) : List Dockerfile :=
  firsts (·.path) p.dockerfiles

theorem mem_entities_iff {fs : List Dockerfile} {e : Entity} :
    e ∈ (fs.flatMap (·.entityNodes)).map (·.entity) ↔
      ∃ f ∈ fs, e = f.entity ∨ ∃ s ∈ f.shown, stageEntity f.path s = e := by
  simp only [List.map_flatMap, List.mem_flatMap, Dockerfile.entityNodes, List.map_cons,
    List.map_map, List.mem_cons, List.mem_map]
  rfl

/-- The graph of files has those that are shown, with their stages. -/
theorem grows_foldl_addDockerfile {fs : List Dockerfile} (hfs : ∀ f ∈ fs, f.Sound) :
    Grows .empty ((firsts (·.path) fs).flatMap (·.entityNodes))
      ((firsts (·.path) fs).flatMap (·.shownRelations)) (fs.foldl addDockerfile .empty) := by
  induction fs using List.reverseRecOn with
  | nil => exact .refl wellFormed_empty rfl
  | append_singleton fs f ih =>
    obtain ⟨hold, hf⟩ := List.forall_mem_append.1 hfs
    replace hold := ih hold
    have hsound : f.Sound := hf f List.mem_cons_self
    have hmem : ∀ e, e ∈ (fs.foldl addDockerfile .empty).mentioned ↔
        ∃ f ∈ firsts (·.path) fs, e = f.entity ∨ ∃ s ∈ f.shown, stageEntity f.path s = e := by
      intro e
      rw [hold.mentioned, ← mem_entities_iff]
      rfl
    rw [List.foldl_append, List.foldl_cons, List.foldl_nil, firsts_concat]
    by_cases hpath : f.path ∈ fs.map (·.path)
    · obtain ⟨f', hf', hsame⟩ := List.mem_map.1 ((mem_map_firsts (·.path) fs _).2 hpath)
      have hold' : f.entity ∈ (fs.foldl addDockerfile .empty).mentioned :=
        (hmem _).2 ⟨f', hf', Or.inl (Dockerfile.entity_eq_iff.2 hsame.symm)⟩
      rw [if_pos hpath, List.append_nil,
        addDockerfile_of_mem hold.wellFormed hold.dangling hold']
      exact hold
    · rw [← mem_map_firsts, List.mem_map] at hpath
      rw [if_neg (by rwa [← mem_map_firsts, List.mem_map]), List.flatMap_append,
        List.flatMap_append, List.flatMap_singleton, List.flatMap_singleton]
      refine hold.trans (grows_addDockerfile hold.wellFormed hold.dangling ?_ ?_ hsound)
      · rw [hmem]
        rintro ⟨f', hf', he | ⟨s, -, he⟩⟩
        · exact hpath ⟨f', hf', (Dockerfile.entity_eq_iff.1 he).symm⟩
        · exact f.entity_ne_stageEntity _ _ he.symm
      · intro s hs
        obtain ⟨f', hf', he | ⟨s', -, he⟩⟩ := (hmem _).1 hs
        · exact f'.entity_ne_stageEntity _ _ he.symm
        · exact hpath ⟨f', hf', (stageEntity_eq_iff.1 he).1⟩

/-! ## The graph of a project -/

namespace Project

variable {p : Project}

theorem relations_graph (h : ∀ f ∈ p.dockerfiles, f.Sound) : p.graph.relations =
    p.files.flatMap (·.shownRelations) ++ p.composed.services.flatMap (·.relations) := by
  have hadds := p.adds_files
  rw [graph_eq, hadds.wellFormed.relations_foldl_relate, hadds.relations,
    (grows_foldl_addDockerfile h).relations]
  rfl

/-- The relations of a kind that services have none of. -/
theorem relationsOfKind_graph (h : ∀ f ∈ p.dockerfiles, f.Sound) {k : RelationKind}
    (hk : k ∉ dependencyKinds) : p.graph.relationsOfKind k =
      p.files.flatMap fun f => f.shown.flatMap fun s => (f.stageRelations s).filter (·.kind = k) := by
  have hservices : (p.composed.services.flatMap (·.relations)).filter (·.kind = k) = [] := by
    refine List.filter_eq_nil_iff.2 fun r hr hkind => ?_
    obtain ⟨s, -, hr⟩ := List.mem_flatMap.1 hr
    exact hk (of_decide_eq_true hkind ▸ (s.relations_kinds r hr).1)
  rw [relationsOfKind, relations_graph h, List.filter_append, hservices, List.append_nil,
    List.filter_flatMap]
  exact List.flatMap_congr fun f _ => List.filter_flatMap ..

theorem contains_graph (h : ∀ f ∈ p.dockerfiles, f.Sound) : p.graph.relationsOfKind .contains =
    p.files.flatMap fun f => f.shown.flatMap fun s => [f.contains s] := by
  rw [relationsOfKind_graph h (by decide)]
  refine List.flatMap_congr fun f _ => List.flatMap_congr fun s _ => ?_
  cases ht : parentStage? f s <;>
    simp [Dockerfile.stageRelations, Dockerfile.contains, Dockerfile.inherits, ht]

theorem inherits_graph (h : ∀ f ∈ p.dockerfiles, f.Sound) : p.graph.relationsOfKind .inherits =
    p.files.flatMap fun f => f.shown.flatMap fun s =>
      (parentStage? f s).toList.map (f.inherits s) := by
  rw [relationsOfKind_graph h (by decide)]
  refine List.flatMap_congr fun f _ => List.flatMap_congr fun s _ => ?_
  cases ht : parentStage? f s <;>
    simp [Dockerfile.stageRelations, Dockerfile.contains, Dockerfile.inherits, ht]

/-- What only one stage gives is found where that one gives it. -/
theorem filter_flatMap_shown {f : Dockerfile} (hf : f ∈ p.files) {s : Stage} (hs : s ∈ f.shown)
    {added : Dockerfile → Stage → List Relation} {q : Relation → Bool}
    (hq : ∀ f' s' r, r ∈ added f' s' → q r = true → stageEntity f'.path s' = stageEntity f.path s) :
    (p.files.flatMap fun f => f.shown.flatMap (added f)).filter q = (added f s).filter q := by
  rw [files, filter_flatMap_firsts Dockerfile.path hf, Dockerfile.shown,
    filter_flatMap_firsts Stage.label hs]
  · exact fun s' _ r hr hqr => (stageEntity_eq_iff.1 (hq f s' r hr hqr)).2
  · intro f' _ r hr hqr
    obtain ⟨s', -, hr⟩ := List.mem_flatMap.1 hr
    exact (stageEntity_eq_iff.1 (hq f' s' r hr hqr)).1

/-- An entity of a stage is that of just one stage that is shown. -/
theorem eq_of_stageEntity_eq {f f' : Dockerfile} {s s' : Stage} (hf : f ∈ p.files)
    (hf' : f' ∈ p.files) (hs : s ∈ f.shown) (hs' : s' ∈ f'.shown)
    (h : stageEntity f.path s = stageEntity f'.path s') : f = f' ∧ s = s' := by
  obtain ⟨hpath, hlabel⟩ := stageEntity_eq_iff.1 h
  obtain rfl := eq_of_mem_firsts Dockerfile.path hf hf' hpath
  exact ⟨rfl, eq_of_mem_firsts Stage.label hs hs' hlabel⟩

/-- One entity inherits from another. -/
def Inherits (p : Project) (a b : Entity) : Prop :=
  ∃ r ∈ p.graph.relationsOfKind .inherits, r.source = a ∧ r.target = b

/-- The graph shows the stages. Each stands where its number says, and so the stages before it are
there. What is inherited from is the first stage of the file that is named like the base, it stands
before the heir, and nothing comes back to itself. A stage that is shown is contained once, in its
file, and inherits if an earlier stage is named like its base. No file and no stage is dangling. -/
structure ShowsStages (p : Project) : Prop where
  numbered : ∀ f ∈ p.dockerfiles, ∀ (i : ℕ) (s : Stage), f.stages[i]? = some s →
    s.index = i ∧ s.index ≤ f.stages.length
  inherits : ∀ r ∈ p.graph.relationsOfKind .inherits, ∃ f ∈ p.files, ∃ s ∈ f.shown, ∃ t ∈ f.shown,
    r = f.inherits s t ∧ f.FirstNamed s.base t ∧ t.index < s.index
  acyclic : ∀ e, ¬Relation.TransGen p.Inherits e e
  contained : ∀ f ∈ p.files, ∀ s ∈ f.shown,
    (p.graph.relationsOfKind .contains).filter (·.target = stageEntity f.path s) = [f.contains s]
  built : ∀ f ∈ p.files, ∀ s ∈ f.shown,
    (∃ u ∈ f.stages, u.index < s.index ∧ u.IsNamed s.base) → ∃ t, f.FirstNamed s.base t ∧
      (p.graph.relationsOfKind .inherits).filter (·.source = stageEntity f.path s) =
        [f.inherits s t]
  extracted : ∀ e ∈ p.graph.dangling, e.kind ≠ .dockerfile ∧ e.kind ≠ .stage

theorem sound_of_mem_files (h : ∀ f ∈ p.dockerfiles, f.Sound) {f : Dockerfile} (hf : f ∈ p.files) :
    f.Sound :=
  h f ((firsts_sublist _ _).subset hf)

theorem exists_of_mem_inherits (h : ∀ f ∈ p.dockerfiles, f.Sound) {r : Relation}
    (hr : r ∈ p.graph.relationsOfKind .inherits) : ∃ f ∈ p.files, ∃ s ∈ f.shown, ∃ t ∈ f.shown,
      r = f.inherits s t ∧ f.FirstNamed s.base t ∧ t.index < s.index := by
  rw [inherits_graph h] at hr
  obtain ⟨f, hf, hr⟩ := List.mem_flatMap.1 hr
  obtain ⟨s, hs, hr⟩ := List.mem_flatMap.1 hr
  obtain ⟨t, ht, rfl⟩ := List.mem_map.1 hr
  have hsound := sound_of_mem_files h hf
  obtain ⟨hfirst, hlt⟩ := hsound.parentStage?_eq_some_iff.1 (Option.mem_toList.1 ht)
  exact ⟨f, hf, s, hs, t, hsound.mem_shown hfirst, rfl, hfirst, hlt⟩

/-- Whatever a stage inherits from, over any number of others, stands before it in its file. -/
theorem index_lt_of_transGen (h : ∀ f ∈ p.dockerfiles, f.Sound) {a b : Entity}
    (hab : Relation.TransGen p.Inherits a b) : ∃ f ∈ p.files, ∃ s ∈ f.shown, ∃ t ∈ f.shown,
      a = stageEntity f.path s ∧ b = stageEntity f.path t ∧ t.index < s.index := by
  induction hab with
  | single hb =>
    obtain ⟨r, hr, rfl, rfl⟩ := hb
    obtain ⟨f, hf, s, hs, t, ht, rfl, -, hlt⟩ := exists_of_mem_inherits h hr
    exact ⟨f, hf, s, hs, t, ht, rfl, rfl, hlt⟩
  | tail _ hc ih =>
    obtain ⟨f, hf, s, hs, t, ht, ha, hb, hlt⟩ := ih
    obtain ⟨r, hr, hsource, rfl⟩ := hc
    obtain ⟨f', hf', t', ht', u, hu, rfl, -, hlt'⟩ := exists_of_mem_inherits h hr
    obtain ⟨rfl, rfl⟩ := eq_of_stageEntity_eq hf hf' ht ht' (hb.symm.trans hsource.symm)
    exact ⟨f, hf, s, hs, u, hu, ha, rfl, by omega⟩

theorem kind_of_mem_dangling (h : ∀ f ∈ p.dockerfiles, f.Sound) {e : Entity}
    (he : e ∈ p.graph.dangling) : e.kind ≠ .dockerfile ∧ e.kind ≠ .stage := by
  have hadds := p.adds_files
  have hfiles := (grows_foldl_addDockerfile h).dangling
  rw [graph_eq, hadds.wellFormed.mem_dangling_foldl_relate] at he
  rcases he with he | ⟨⟨r, hr, hends⟩, -⟩
  · have hmem := hadds.dangling he
    rw [hfiles] at hmem
    cases hmem
  · obtain ⟨s, -, hr⟩ := List.mem_flatMap.1 hr
    have hsought : r ∈ s.sought := (List.mem_filter.1 (s.relations_eq ▸ hr)).1
    have hsource := (Service.mem_sought r hsought).1
    have htarget := (s.relations_kinds r hr).2
    rcases hends with rfl | rfl
    · simp [hsource, serviceEntity]
    · simpa [not_or] using htarget

theorem showsStages (h : ∀ f ∈ p.dockerfiles, f.Sound) : p.ShowsStages where
  numbered f hf i s hs := by
    have hsound := h f hf
    exact ⟨hsound.index_eq hs, (hsound.index_lt (List.mem_of_getElem? hs)).le⟩
  inherits r hr := exists_of_mem_inherits h hr
  acyclic e he := by
    obtain ⟨f, hf, s, hs, t, ht, rfl, heq, hlt⟩ := index_lt_of_transGen h he
    obtain ⟨-, rfl⟩ := eq_of_stageEntity_eq hf hf hs ht heq
    exact lt_irrefl _ hlt
  contained f hf s hs := by
    rw [contains_graph h, filter_flatMap_shown hf hs]
    · simp [Dockerfile.contains]
    · intro f' s' r hr hq
      obtain rfl := List.mem_singleton.1 hr
      exact of_decide_eq_true hq
  built f hf s hs hbase := by
    have hsound := sound_of_mem_files h hf
    obtain ⟨t, ht⟩ := hsound.exists_parentStage? hbase
    refine ⟨t, (hsound.parentStage?_eq_some_iff.1 ht).1, ?_⟩
    rw [inherits_graph h, filter_flatMap_shown hf hs]
    · simp [ht, Dockerfile.inherits]
    · intro f' s' r hr hq
      obtain ⟨t', -, rfl⟩ := List.mem_map.1 hr
      exact of_decide_eq_true hq
  extracted e he := kind_of_mem_dangling h he

/-- The graph of any texts with any paths, and of any compose file, shows the stages. -/
theorem stages_shown (name : String) (files : List (String × String)) (compose : Option Compose) :
    ShowsStages
      { name, dockerfiles := files.map fun (path, text) => Dockerfile.read path text, compose } :=
  showsStages (List.forall_mem_map.2 fun (path, text) _ => Dockerfile.sound_read path text)

end Project

end Atlas.Docker
