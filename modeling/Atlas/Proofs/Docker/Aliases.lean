import Atlas.Proofs.Docker.Nodes

/-!
# Aliases in the text of a Docker project

The text of a project declares its nodes and their notes, with the aliases of the diagram
(`Project.declared_plantUml`). Nodes have different identifiers just if no two Dockerfiles have one path
and no two services, networks or volumes one name (`Project.NamesApart`). But the aliases of notes
are made without asking whether they are taken : a service `N-web-1` has the identifier of the first
note of a service `web` (`note_alias_repeated`). `Project.aliases_declared` says just when an alias is
declared twice, and that none is where no name looks like the alias of a note.
-/

set_option linter.unusedSectionVars false

namespace Atlas.Docker

open Identifiers PlantUml

/-! ## The text -/

theorem declares_preamble : Declares preamble [] :=
  .silent (by decide)

theorem Service.bare_edges {ids : Identifiers} (h : Reached ids) (s : Service) :
    ∀ e ∈ s.edges ids, Bare e := by
  obtain ⟨log, h⟩ := h
  rw [Service.edges]
  cases hs : ids.lookup? ("service:" ++ s.name) with
  | none => exact List.forall_mem_nil _
  | some source =>
    have hfound : ∀ (kind arrow : String) (label : Option String) (names : List String),
        OneLine arrow ∧ arrow.toList.head? ≠ some '"' ∧ arrow.toList ≠ [] →
        ∀ e ∈ names.filterMap (fun n => (ids.lookup? (kind ++ ":" ++ n)).map fun target =>
          ({ source, arrow, target, label } : Edge)), Bare e := by
      intro kind arrow label names harrow e he
      obtain ⟨n, -, he⟩ := List.mem_filterMap.1 he
      obtain ⟨target, htarget, rfl⟩ := Option.map_eq_some_iff.1 he
      exact ⟨h.isIdentifier_of_lookup? hs, h.isIdentifier_of_lookup? htarget, harrow, rfl, rfl, rfl⟩
    refine List.forall_mem_append.2 ⟨List.forall_mem_append.2 ⟨?_, ?_⟩, ?_⟩
    · exact hfound _ _ _ _ (by decide)
    · exact hfound _ _ _ _ (by decide)
    · exact hfound _ _ _ _ (by decide)

namespace Project

variable {p : Project} {ids : Identifiers} {log : Log}

theorem DrawnWith.inlineDiagram (h : p.DrawnWith ids log) : InlineDiagram p.diagram := by
  refine ⟨?_, h.inline, ?_⟩
  · rw [diagram_eq]
    exact declares_preamble
  · rw [h.edges]
    exact List.forall_mem_flatMap.2 fun s _ => s.bare_edges h.records.reached

/-! ## Names -/

/-- No two Dockerfiles have one path, and no two services, networks or volumes one name. -/
structure NamesApart (p : Project) : Prop where
  paths : (p.dockerfiles.map (·.path)).Nodup
  services : (p.composed.services.map (·.name)).Nodup
  networks : (p.composed.networks.map (·.name)).Nodup
  volumes : (p.composed.volumes.map (·.name)).Nodup

/-- Entities of one kind differ just if their names do. -/
theorem nodup_map_entity {α : Type} (kind : EntityKind) (name : α → String) (as : List α) :
    (as.map fun a => ({ kind, name := name a } : Entity)).Nodup ↔ (as.map name).Nodup := by
  have hinj : Function.Injective fun name => ({ kind, name } : Entity) := fun _ _ h =>
    congrArg Entity.name h
  rw [← List.nodup_map_iff hinj, List.map_map]
  rfl

theorem nodup_entities_iff (p : Project) : p.entities.Nodup ↔ p.NamesApart := by
  have hkinds : ∀ {xs ys : List Entity}, (∀ x ∈ xs, ∀ y ∈ ys, x.kind ≠ y.kind) →
      ((xs ++ ys).Nodup ↔ xs.Nodup ∧ ys.Nodup) := fun hne => by
    rw [List.nodup_append]
    exact and_congr_right fun _ => and_iff_left fun x hx y hy he => hne x hx y hy (he ▸ rfl)
  rw [entities, Compose.entities, hkinds, hkinds, hkinds]
  · refine ((nodup_map_entity _ _ _).and (((nodup_map_entity _ _ _).and
      (nodup_map_entity _ _ _)).and (nodup_map_entity _ _ _))).trans ?_
    constructor
    · rintro ⟨hf, ⟨hs, hn⟩, hv⟩
      exact ⟨hf, hs, hn, hv⟩
    · rintro ⟨hf, hs, hn, hv⟩
      exact ⟨hf, ⟨hs, hn⟩, hv⟩
  · simp [serviceEntity, networkEntity]
  · simp [serviceEntity, networkEntity, volumeEntity, or_imp, forall_and]
  · simp [Dockerfile.entity, serviceEntity, networkEntity, volumeEntity, or_imp, forall_and]

theorem DrawnWith.nodup_ids_iff (h : p.DrawnWith ids log) :
    ((allNodes p.diagram).map (·.id)).Nodup ↔ p.NamesApart := by
  rw [← h.answers, h.records.nodup_iff, h.keys, ← nodup_entities_iff]
  refine ⟨List.Nodup.of_map _, fun hnodup => hnodup.map_on fun e he f hf hkey => ?_⟩
  exact (entityKey_inj (kind_of_mem_entities e he) (kind_of_mem_entities f hf)).1 hkey

/-! ## Identifiers that look like aliases of notes -/

/-- No path of a Dockerfile and no name of a service, network or volume looks like the alias of a
note. -/
def NamesPlain (p : Project) : Prop :=
  ∀ e ∈ p.entities, ¬LikeNote (Text.identifier e.name)

/-- The answer of the call for an entity is made of the name of the entity. -/
theorem DrawnWith.madeOf (h : p.DrawnWith ids log) {e : Call × String} (he : e ∈ log) {x : Entity}
    (hx : x ∈ p.entities) (hcall : e.1 = entityCall x) :
    MadeOf (Text.identifier x.name) e.2 := by
  obtain ⟨f, hf, hkey, hid⟩ := h.made e he
  rw [hcall] at hkey
  rcases h.calls f hf with ⟨y, hy, hcall'⟩ | ⟨_, _, _, i, hcall'⟩
  · rw [hcall'] at hkey hid
    have hxy := (entityKey_inj (kind_of_mem_entities y hy) (kind_of_mem_entities x hx)).1
      (Option.some.inj hkey)
    rwa [hxy] at hid
  · rw [hcall'] at hkey
    cases hkey

/-- The name that a stage asks with is an identifier already. -/
theorem identifier_stage {id : String} (hid : IsIdentifier id) (i : ℕ) :
    Text.identifier (id ++ "_stage_" ++ toString i) = id ++ "_" ++ ("stage_" ++ toString i) := by
  have htext : id ++ "_stage_" ++ toString i = numbered (id ++ "_stage") i := by
    simp [← String.toList_inj, numbered]
  rw [identifier_of_isIdentifier (htext ▸ isIdentifier_numbered (hid.append (by simp)) i)]
  simp [← String.toList_inj]

theorem DrawnWith.not_likeNote (h : p.DrawnWith ids log) (hplain : p.NamesPlain) :
    ∀ n ∈ allNodes p.diagram, ¬LikeNote n.id := by
  have hentity : ∀ x ∈ p.entities, ¬LikeNote (Text.identifier (Text.identifier x.name)) :=
    fun x hx => by
      rw [identifier_of_isIdentifier (isIdentifier_identifier x.name)]
      exact hplain x hx
  have hcalls : ∀ e ∈ log, ¬LikeNote e.2 := fun e he => by
    obtain ⟨f, hf, -, hid⟩ := h.made e he
    rw [likeNote_iff_of_madeOf hid]
    rcases h.calls f hf with ⟨x, hx, hcall⟩ | ⟨g, hg, ⟨x, hx, hcall⟩, i, hstage⟩
    · rw [hcall]
      exact hentity x hx
    · -- A stage asks with the identifier of its Dockerfile.
      have hform := h.records.form g hg
      rw [hstage, stageCall, Call.name, identifier_stage hform, likeNote_append_iff hform,
        likeNote_iff_of_madeOf (h.madeOf hg hx hcall)]
      exact hentity x hx
  intro n hn
  have hmem : n.id ∈ log.answers := h.answers ▸ List.mem_map_of_mem hn
  obtain ⟨e, he, hid⟩ := List.mem_map.1 hmem
  exact hid ▸ hcalls e he

/-! ## Aliases -/

/-- What the text of a project declares : the nodes of its parts and their notes. No alias is declared
twice just if the names are apart and no identifier is the alias of a note, as where no name looks
like one. -/
structure DeclaresAliases (p : Project) : Prop where
  declared : (Text.lines p.plantUml).filterMap declared? =
    (Text.lines ("Docker Project: " ++ p.name ++ "\n")).tail.filterMap declared? ++
      aliases p.diagram
  labels : (allNodes p.diagram).map (·.label) =
    p.dockerfiles.flatMap (fun f => f.path :: f.stages.map Stage.label) ++
      p.composed.entities.map (·.name)
  nodes : ((allNodes p.diagram).map (·.id)).Nodup ↔ p.NamesApart
  nodup_iff : (aliases p.diagram).Nodup ↔ p.NamesApart ∧
    ∀ n ∈ allNodes p.diagram, ∀ m ∈ allNodes p.diagram, n.id ∉ noteAliases m
  nodup_of_plain : p.NamesApart → p.NamesPlain → (aliases p.diagram).Nodup

/-- The text declares the aliases of the diagram. -/
theorem declared_plantUml (p : Project) : (Text.lines p.plantUml).filterMap declared? =
    (Text.lines ("Docker Project: " ++ p.name ++ "\n")).tail.filterMap declared? ++
      aliases p.diagram := by
  obtain ⟨ids, log, h⟩ := p.exists_drawnWith
  have htitle : p.diagram.title = "Docker Project: " ++ p.name := by rw [diagram_eq]
  rw [← htitle]
  exact declared_render h.inlineDiagram

theorem aliases_declared (p : Project) : p.DeclaresAliases := by
  obtain ⟨ids, log, h⟩ := p.exists_drawnWith
  have hiff : (aliases p.diagram).Nodup ↔ p.NamesApart ∧
      ∀ n ∈ allNodes p.diagram, ∀ m ∈ allNodes p.diagram, n.id ∉ noteAliases m := by
    rw [aliases, nodup_flatMap_nodeAliases, h.nodup_ids_iff]
  refine ⟨p.declared_plantUml, ?_, h.nodup_ids_iff, hiff,
    fun hnames hplain => hiff.2 ⟨hnames, ?_⟩⟩
  · obtain ⟨files, hnodes, hlabels, -⟩ := h.nodes
    rw [hnodes, List.map_append, hlabels, Compose.labels_drawn]
  · intro n hn m _ hmem
    obtain ⟨i, -, hi⟩ := List.mem_map.1 hmem
    exact h.not_likeNote hplain n hn (hi ▸ likeNote_noteAlias m.id i)

end Project

/-- The identifier of a service is the alias of a note of another. -/
theorem note_alias_repeated :
    let web : Service := { name := "web", image := some "nginx" }
    let other : Service := { name := "N-web-1", image := some "redis" }
    let p : Project := { name := "proj", compose := some { services := [web, other] } }
    p.NamesApart ∧ (Text.lines p.plantUml).filterMap declared? =
      ["web", "N_web_1", "N_web_1", "N_N_web_1_1"] := by
  refine ⟨⟨by decide, by decide, by decide, by decide⟩, ?_⟩
  rw [Project.declared_plantUml]
  decide +kernel

end Atlas.Docker
