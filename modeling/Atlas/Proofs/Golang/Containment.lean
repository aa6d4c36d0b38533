import Atlas.Proofs.Golang.Graph

/-!
# What the packages of a Go project contain

All files of a directory are added before the relations of its structs, so that no relation mentions
an entity that is not there yet. While files are added, the graph has one containment for each
member, from the package of the file that declares it first (`Contains`), and relations of other
kinds leave that as it is (`Contains.relates`). So nothing of a project is dangling, every member is
contained once, and structs are related as the entries of their directories say
(`members_contained_once`).
-/

set_option linter.unusedSectionVars false

namespace Atlas.Golang

open Atlas.Graph

/-! ## Declarations -/

/-- The names that a file declares of a kind. -/
def SourceFile.declared (f : SourceFile) : EntityKind → List String
  | .struct => f.structs.map (·.name)
  | .interface => f.interfaces.map (·.name)
  | .function => f.functions.map (·.name)
  | _ => []

/-- The files of a directory, entry after entry. -/
def Project.filesIn (p : Project) (directory : String) : List SourceFile :=
  (p.directories.filter (·.path = directory)).flatMap (·.files)

theorem mem_members_iff {f : SourceFile} {path directory name : String} {kind : EntityKind} :
    entityIn directory kind name ∈ (f.members path).map (·.entity) ↔
      path = directory ∧ name ∈ f.declared kind := by
  simp only [SourceFile.members, List.map_append, List.map_map, List.mem_append, List.mem_map,
    Function.comp_apply, EntityNode.withDoc, entityIn, Entity.mk.injEq, Option.some.injEq]
  cases kind <;> simp [SourceFile.declared] <;> tauto

theorem exists_of_mem_members {f : SourceFile} {path : String} {e : Entity}
    (h : e ∈ (f.members path).map (·.entity)) : e = entityIn path e.kind e.name ∧
      e.kind ≠ .package := by
  simp only [SourceFile.members, List.map_append, List.map_map, List.mem_append, List.mem_map,
    Function.comp_apply, EntityNode.withDoc, entityIn] at h
  rcases h with (⟨_, -, rfl⟩ | ⟨_, -, rfl⟩) | ⟨_, -, rfl⟩ <;>
    exact ⟨rfl, EntityKind.noConfusion⟩

/-! ## Containments -/

/-- The package of a file contains a member of the directory. -/
def containment (directory : String) (f : SourceFile) (e : Entity) : Relation :=
  ⟨entityIn directory .package f.package, e, .contains, none⟩

/-- The containments that a file declares, whether another one declares them before it or not. -/
def SourceFile.containments (directory : String) (f : SourceFile) : List Relation :=
  (f.members directory).map fun n => containment directory f n.entity

/-- The containments that a directory declares. -/
def Directory.containments (d : Directory) : List Relation :=
  d.files.flatMap (SourceFile.containments d.path)

/-- The containments that a project declares. -/
def Project.containments (p : Project) : List Relation :=
  p.directories.flatMap (·.containments)

theorem map_target_containments (directory : String) (f : SourceFile) :
    (f.containments directory).map (·.target) = (f.members directory).map (·.entity) := by
  rw [SourceFile.containments, List.map_map]
  rfl

/-- Of the containments `cs` the graph has the first one of each target, nothing in it is dangling,
and the targets are all that it mentions besides packages. -/
structure Contains (cs : List Relation) (g : Graph) : Prop where
  wellFormed : g.WellFormed
  dangling : g.dangling = []
  contained : g.relationsOfKind .contains = firsts (·.target) cs
  mentioned : ∀ e, e.kind ≠ .package → (e ∈ g.mentioned ↔ e ∈ cs.map (·.target))
  kinds : ∀ r ∈ g.relations, r.kind = .contains ∨ r.kind = .uses ∨ r.kind = .implements

namespace Contains

variable {cs : List Relation} {g g' : Graph}

theorem empty : Contains [] Graph.empty :=
  ⟨wellFormed_empty, rfl, rfl, fun _ _ => Iff.rfl, fun _ h => absurd h List.not_mem_nil⟩

theorem ensure (h : Contains cs g) {package : Entity} (hp : package.kind = .package) :
    Contains cs (g.ensure package).2 ∧ package ∈ (g.ensure package).2.mentioned := by
  have hrel : (g.ensure package).2.relations = g.relations := h.wellFormed.relations_place _
  have hmem : (g.ensure package).2.mentioned = concatNew id g.mentioned package :=
    h.wellFormed.mentioned_place _
  refine ⟨⟨h.wellFormed.place _, ?_, ?_, fun e he => ?_, hrel ▸ h.kinds⟩, ?_⟩
  · cases hi : g.index? package with
    | some i => rw [Graph.ensure, place_of_some hi, h.dangling]
    | none =>
      rw [Graph.ensure, place_of_none hi]
      exact WellFormed.dangling_push h.dangling rfl
  · rw [relationsOfKind, hrel]
    exact h.contained
  · rw [hmem, mem_concatNew, ← h.mentioned e he]
    exact or_iff_left fun heq => he (heq ▸ hp)
  · rw [hmem]
    exact mem_concatNew.2 (Or.inr rfl)

/-- A member is contained in the first package that is told to contain it. -/
theorem addMember (h : Contains cs g) {package : Entity} (hp : package ∈ g.mentioned)
    {n : EntityNode} (hn : n.dangling = false) (hk : n.entity.kind ≠ .package) :
    Contains (cs ++ [⟨package, n.entity, .contains, none⟩]) (addMember package g n) ∧
      package ∈ (Golang.addMember package g n).mentioned := by
  set r : Relation := ⟨package, n.entity, .contains, none⟩
  rcases h.wellFormed.add_cases_of_dangling h.dangling n with ⟨hnew, ha⟩ | ⟨hold, ha⟩
  · have hpush : g.addNew n = g.push n := by rw [Graph.addNew, ha]
    have hwf : (g.push n).WellFormed := hpush ▸ h.wellFormed.addNew n
    have hrel : (g.push n).relations = g.relations := hpush ▸ h.wellFormed.relations_addNew n
    have hmem := WellFormed.mentioned_push g n
    have hrelates : Relates (g.push n) [r] ((g.push n).relate r) :=
      .relate hwf (hmem ▸ List.mem_append_left _ hp) (hmem ▸ List.mem_concat_self)
    have hstep : Golang.addMember package g n = (g.push n).relate r := by
      rw [Golang.addMember, ha]
    rw [hstep]
    refine ⟨⟨hrelates.wellFormed, ?_, ?_, fun e he => ?_, ?_⟩, ?_⟩
    · exact hrelates.dangling.trans (WellFormed.dangling_push h.dangling hn)
    · have hfirst : r.target ∉ cs.map (·.target) := fun hm => hnew ((h.mentioned _ hk).2 hm)
      rw [relationsOfKind, hrelates.relations, hrel, List.filter_append, firsts_concat,
        if_neg hfirst, ← h.contained]
      rfl
    · rw [hrelates.mentioned, hmem, List.map_append, List.mem_append, List.mem_append,
        h.mentioned e he]
      rfl
    · rw [hrelates.relations, hrel]
      exact List.forall_mem_append.2 ⟨h.kinds, List.forall_mem_singleton.2 (Or.inl rfl)⟩
    · rw [hrelates.mentioned, hmem]
      exact List.mem_append_left _ hp
  · have hstep : Golang.addMember package g n = g := by rw [Golang.addMember, ha]
    have hsecond : r.target ∈ cs.map (·.target) := (h.mentioned _ hk).1 hold
    rw [hstep]
    refine ⟨⟨h.wellFormed, h.dangling, ?_, fun e he => ?_, h.kinds⟩, hp⟩
    · rw [h.contained, firsts_concat, if_pos hsecond, List.append_nil]
    · rw [h.mentioned e he, List.map_append, List.mem_append]
      refine (or_iff_left_of_imp fun hm => ?_).symm
      rwa [List.mem_singleton.1 hm]

theorem addMembers (h : Contains cs g) {package : Entity} (hp : package ∈ g.mentioned)
    {ns : List EntityNode} (hns : ∀ n ∈ ns, n.dangling = false ∧ n.entity.kind ≠ .package) :
    Contains (cs ++ ns.map fun n => ⟨package, n.entity, .contains, none⟩)
      (ns.foldl (Golang.addMember package) g) := by
  induction ns generalizing cs g with
  | nil => simpa using h
  | cons n ns ih =>
    obtain ⟨⟨hd, hk⟩, hns⟩ := List.forall_mem_cons.1 hns
    obtain ⟨hn, hp⟩ := h.addMember hp hd hk
    simpa using ih hn hp hns

theorem addFile (h : Contains cs g) (directory : String) (f : SourceFile) :
    Contains (cs ++ f.containments directory) (addFile directory g f) := by
  have hpackage : (entityIn directory .package f.package).kind = .package := rfl
  obtain ⟨hensure, hp⟩ := h.ensure hpackage
  refine hensure.addMembers hp fun n hn => ⟨?_, ?_⟩
  · simp only [SourceFile.members, List.mem_append, List.mem_map] at hn
    rcases hn with (⟨_, -, rfl⟩ | ⟨_, -, rfl⟩) | ⟨_, -, rfl⟩ <;> rfl
  · exact (exists_of_mem_members (List.mem_map_of_mem hn)).2

theorem addFiles (h : Contains cs g) (directory : String) (fs : List SourceFile) :
    Contains (cs ++ fs.flatMap (SourceFile.containments directory))
      (fs.foldl (Golang.addFile directory) g) := by
  induction fs generalizing cs g with
  | nil => simpa using h
  | cons f fs ih => simpa using ih (h.addFile directory f)

/-- Other relations between what is there contain nothing more. -/
theorem relates (h : Contains cs g) {rs : List Relation} (hr : Relates g rs g')
    (hrs : ∀ r ∈ rs, r.kind = .uses ∨ r.kind = .implements) : Contains cs g' := by
  refine ⟨hr.wellFormed, hr.dangling.trans h.dangling, ?_, fun e he => ?_, ?_⟩
  · have hnone : rs.filter (·.kind = .contains) = [] :=
      List.filter_eq_nil_iff.2 fun r hmem => by rcases hrs r hmem with hk | hk <;> simp [hk]
    rw [relationsOfKind, hr.relations, List.filter_append, hnone, List.append_nil, ← h.contained,
      relationsOfKind]
  · rw [hr.mentioned, h.mentioned e he]
  · rw [hr.relations]
    exact List.forall_mem_append.2 ⟨h.kinds, fun r hmem => Or.inr (hrs r hmem)⟩

end Contains

/-! ## Relations of structs -/

namespace Directory

variable (d : Directory) (s : Struct)

/-- The struct of the directory entry, other than `s`, that a field of `s` refers to. -/
def followed? (f : StructField) : Option String :=
  f.localType?.filter fun name => name ≠ s.name ∧ name ∈ d.structs.map (·.name)

/-- What a struct uses, field by field. -/
def uses : List Relation :=
  s.fields.filterMap fun f => (d.followed? s f).map fun name =>
    ⟨entityIn d.path .struct s.name, entityIn d.path .struct name, .uses, some f.name⟩

/-- What a struct implements. -/
def implementations : List Relation :=
  (d.interfaces.filter (implements s)).map fun i =>
    ⟨entityIn d.path .struct s.name, entityIn d.path .interface i.name, .implements, none⟩

theorem relationsOf_eq : d.relationsOf s = d.uses s ++ d.implementations s := by
  rw [relationsOf, uses, implementations]
  congr 1
  refine List.filterMap_congr fun f _ => ?_
  rw [followed?]
  cases f.localType? with
  | none => rfl
  | some name =>
    have hany : d.structs.any (·.name == name) = true ↔ name ∈ d.structs.map (·.name) := by simp
    dsimp only
    rw [Option.filter_some, if_congr (and_congr_right' hany) rfl rfl]
    simp only [decide_eq_true_eq]
    split_ifs <;> rfl

theorem mem_uses {r : Relation} (h : r ∈ d.uses s) : r.kind = .uses ∧
    r.source = entityIn d.path .struct s.name ∧
    ∃ t ∈ d.structs, r.target = entityIn d.path .struct t.name := by
  obtain ⟨f, -, hf⟩ := List.mem_filterMap.1 h
  obtain ⟨name, hname, rfl⟩ := Option.map_eq_some_iff.1 hf
  obtain ⟨-, hfollowed⟩ := Option.filter_eq_some_iff.1 hname
  obtain ⟨t, ht, rfl⟩ := List.mem_map.1 (of_decide_eq_true hfollowed).2
  exact ⟨rfl, rfl, t, ht, rfl⟩

theorem mem_implementations {r : Relation} (h : r ∈ d.implementations s) : r.kind = .implements ∧
    r.source = entityIn d.path .struct s.name ∧
    ∃ i ∈ d.interfaces, r.target = entityIn d.path .interface i.name := by
  obtain ⟨i, hi, rfl⟩ := List.mem_map.1 h
  exact ⟨rfl, rfl, i, (List.mem_filter.1 hi).1, rfl⟩

/-- Relations of structs join what the directory declares. -/
theorem ends_relationsOf {s : Struct} (hs : s ∈ d.structs) {r : Relation}
    (h : r ∈ d.relationsOf s) : (r.kind = .uses ∨ r.kind = .implements) ∧
      r.source ∈ d.containments.map (·.target) ∧ r.target ∈ d.containments.map (·.target) := by
  have hmem : ∀ kind name, (∃ f ∈ d.files, name ∈ f.declared kind) →
      entityIn d.path kind name ∈ d.containments.map (·.target) := by
    rintro kind name ⟨f, hf, hname⟩
    rw [containments, List.map_flatMap]
    refine List.mem_flatMap.2 ⟨f, hf, ?_⟩
    rw [map_target_containments]
    exact mem_members_iff.2 ⟨rfl, hname⟩
  have hstruct : ∀ t ∈ d.structs, entityIn d.path .struct t.name ∈ d.containments.map (·.target) :=
    fun t ht => by
      obtain ⟨f, hf, ht⟩ := List.mem_flatMap.1 ht
      exact hmem _ _ ⟨f, hf, List.mem_map_of_mem ht⟩
  have hinterface : ∀ i ∈ d.interfaces,
      entityIn d.path .interface i.name ∈ d.containments.map (·.target) := fun i hi => by
    obtain ⟨f, hf, hi⟩ := List.mem_flatMap.1 hi
    exact hmem _ _ ⟨f, hf, List.mem_map_of_mem hi⟩
  rw [relationsOf_eq, List.mem_append] at h
  rcases h with h | h
  · obtain ⟨hk, hsource, t, ht, htarget⟩ := d.mem_uses s h
    exact ⟨Or.inl hk, hsource ▸ hstruct s hs, htarget ▸ hstruct t ht⟩
  · obtain ⟨hk, hsource, i, hi, htarget⟩ := d.mem_implementations s h
    exact ⟨Or.inr hk, hsource ▸ hstruct s hs, htarget ▸ hinterface i hi⟩

theorem filter_uses : (d.structs.flatMap d.relationsOf).filter (·.kind = .uses) =
    d.structs.flatMap d.uses := by
  rw [List.filter_flatMap]
  refine List.flatMap_congr fun s _ => ?_
  rw [relationsOf_eq, List.filter_append, List.filter_eq_self.2 fun r hr => ?_,
    List.filter_eq_nil_iff.2 fun r hr => ?_, List.append_nil]
  · simp [(d.mem_implementations s hr).1]
  · simp [(d.mem_uses s hr).1]

theorem filter_implementations :
    (d.structs.flatMap d.relationsOf).filter (·.kind = .implements) =
      d.structs.flatMap d.implementations := by
  rw [List.filter_flatMap]
  refine List.flatMap_congr fun s _ => ?_
  rw [relationsOf_eq, List.filter_append, List.filter_eq_nil_iff.2 fun r hr => ?_,
    List.filter_eq_self.2 fun r hr => ?_, List.nil_append]
  · simp [(d.mem_implementations s hr).1]
  · simp [(d.mem_uses s hr).1]

end Directory

/-! ## The whole project -/

theorem Contains.addDirectory {cs : List Relation} {g : Graph} (h : Contains cs g)
    (d : Directory) : Contains (cs ++ d.containments) (addDirectory g d) := by
  have hfiles := h.addFiles d.path d.files
  have hends : ∀ r ∈ d.structs.flatMap d.relationsOf,
      (r.kind = .uses ∨ r.kind = .implements) ∧
        r.source ∈ d.containments.map (·.target) ∧ r.target ∈ d.containments.map (·.target) := by
    intro r hr
    obtain ⟨s, hs, hr⟩ := List.mem_flatMap.1 hr
    exact d.ends_relationsOf hs hr
  have hmem : ∀ e ∈ d.containments.map (·.target),
      e ∈ (d.files.foldl (Golang.addFile d.path) g).mentioned := by
    intro e he
    have hkind : e.kind ≠ .package := by
      rw [Directory.containments, List.map_flatMap] at he
      obtain ⟨f, -, hf⟩ := List.mem_flatMap.1 he
      rw [map_target_containments] at hf
      exact (exists_of_mem_members hf).2
    rw [hfiles.mentioned e hkind, List.map_append]
    exact List.mem_append_right _ he
  have hstep : ∀ g' r, r ∈ d.structs.flatMap d.relationsOf → g'.WellFormed →
      g'.mentioned = (d.files.foldl (Golang.addFile d.path) g).mentioned →
      Relates g' [r] (g'.relate r) := by
    intro g' r hr hwf hg'
    obtain ⟨-, hsource, htarget⟩ := hends r hr
    exact .relate hwf (hg' ▸ hmem _ hsource) (hg' ▸ hmem _ htarget)
  have hrelates := Relates.foldl hfiles.wellFormed hstep
  rw [List.flatMap_singleton'] at hrelates
  exact hfiles.relates hrelates fun r hr => (hends r hr).1

theorem contains_graph (p : Project) : Contains p.containments p.graph := by
  have hfold : ∀ (ds : List Directory) (cs : List Relation) (g : Graph), Contains cs g →
      Contains (cs ++ ds.flatMap (·.containments)) (ds.foldl addDirectory g) := by
    intro ds
    induction ds with
    | nil => exact fun cs g h => by simpa using h
    | cons d ds ih => exact fun cs g h => by simpa using ih _ _ (h.addDirectory d)
  exact hfold p.directories [] Graph.empty .empty

section First

variable (directory name : String) (kind : EntityKind)

theorem find?_containments_file (path : String) (f : SourceFile) :
    (f.containments path).find? (·.target = entityIn directory kind name) =
      if path = directory ∧ name ∈ f.declared kind then
        some (containment directory f (entityIn directory kind name))
      else none := by
  rw [SourceFile.containments, List.find?_map]
  split_ifs with h
  · obtain ⟨n, hn, he⟩ := List.mem_map.1 (mem_members_iff.2 h)
    obtain ⟨m, hm⟩ : ∃ m,
        (f.members path).find? (fun n => n.entity = entityIn directory kind name) =
        some m := Option.isSome_iff_exists.1 (List.find?_isSome.2 ⟨n, hn, decide_eq_true he⟩)
    have hentity : m.entity = entityIn directory kind name := by simpa using List.find?_some hm
    rw [← hentity, ← h.1]
    rw [← hentity] at hm
    exact congrArg (Option.map _) hm
  · have hnone : (f.members path).find? (fun n => n.entity = entityIn directory kind name) = none :=
      List.find?_eq_none.2 fun n hn he =>
        h (mem_members_iff.1 (List.mem_map.2 ⟨n, hn, of_decide_eq_true he⟩))
    exact congrArg (Option.map _) hnone

theorem find?_containments_files (path : String) (fs : List SourceFile) :
    (fs.flatMap (SourceFile.containments path)).find? (·.target = entityIn directory kind name) =
      if path = directory then
        (fs.find? (name ∈ ·.declared kind)).map fun f =>
          containment directory f (entityIn directory kind name)
      else none := by
  induction fs with
  | nil => exact (ite_self none).symm
  | cons f fs ih =>
    rw [List.flatMap_cons, List.find?_append, ih, find?_containments_file, List.find?_cons]
    by_cases hp : path = directory <;> by_cases hn : name ∈ f.declared kind <;> simp [hp, hn]

/-- The first containment of a member is that of the file that declares it first. -/
theorem find?_containments (p : Project) :
    p.containments.find? (·.target = entityIn directory kind name) =
      ((p.filesIn directory).find? (name ∈ ·.declared kind)).map fun f =>
        containment directory f (entityIn directory kind name) := by
  rw [Project.containments, Project.filesIn]
  induction p.directories with
  | nil => rfl
  | cons d ds ih =>
    rw [List.flatMap_cons, List.find?_append, ih, Directory.containments,
      find?_containments_files, List.filter_cons]
    by_cases hp : d.path = directory
    · rw [if_pos hp, if_pos (decide_eq_true hp), List.flatMap_cons, List.find?_append,
        Option.map_or]
    · rw [if_neg hp, if_neg (by simpa using hp), Option.none_or]

end First

theorem mem_containments_iff (p : Project) (directory name : String) (kind : EntityKind) :
    entityIn directory kind name ∈ p.containments.map (·.target) ↔
      ∃ f ∈ p.filesIn directory, name ∈ f.declared kind := by
  rw [← isSome_find?_iff, find?_containments, Option.isSome_map, List.find?_isSome]
  simp only [decide_eq_true_eq]

theorem Project.exists_of_mem_containments (p : Project) {e : Entity}
    (h : e ∈ p.containments.map (·.target)) :
    ∃ directory, e = entityIn directory e.kind e.name := by
  rw [Project.containments, List.map_flatMap] at h
  obtain ⟨d, -, hd⟩ := List.mem_flatMap.1 h
  rw [Directory.containments, List.map_flatMap] at hd
  obtain ⟨f, -, hf⟩ := List.mem_flatMap.1 hd
  rw [map_target_containments] at hf
  exact ⟨d.path, (exists_of_mem_members hf).1⟩

/-- A member is contained once, as the first of its containments says. -/
theorem Contains.filter_target {cs : List Relation} {g : Graph} (h : Contains cs g) (e : Entity) :
    g.relations.filter (fun r => r.kind = .contains ∧ r.target = e) =
      (cs.find? (·.target = e)).toList := by
  rw [← filter_firsts (·.target) cs e, ← h.contained, relationsOfKind, List.filter_filter]
  exact List.filter_congr fun r _ => by simp [and_comm]

/-- What the graph of a project says about its members: nothing is dangling; what is extracted
besides packages are the members that files of a directory declare, each contained in the package of
the first of these files and in no other; and structs use and implement what the entries of their
directories say, in the order of these. -/
structure Project.ShowsMembers (p : Project) : Prop where
  dangling : p.graph.dangling = []
  kinds : ∀ r ∈ p.graph.relations, r.kind = .contains ∨ r.kind = .uses ∨ r.kind = .implements
  declared : ∀ directory name kind, kind ≠ .package →
    (entityIn directory kind name ∈ p.graph.entities.map (·.entity) ↔
      ∃ f ∈ p.filesIn directory, name ∈ f.declared kind)
  contained : ∀ e ∈ p.graph.entities.map (·.entity), e.kind ≠ .package → ∃ directory f,
    e.scope = some directory ∧
    (p.filesIn directory).find? (e.name ∈ ·.declared e.kind) = some f ∧
    p.graph.relations.filter (fun r => r.kind = .contains ∧ r.target = e) =
      [⟨entityIn directory .package f.package, e, .contains, none⟩]
  uses : p.graph.relationsOfKind .uses =
    p.directories.flatMap fun d => d.structs.flatMap d.uses
  implements : p.graph.relationsOfKind .implements =
    p.directories.flatMap fun d => d.structs.flatMap d.implementations

theorem members_contained_once (p : Project) : p.ShowsMembers := by
  have h := contains_graph p
  have hentities : p.graph.entities.map (·.entity) = p.graph.mentioned :=
    WellFormed.map_entity_entities h.dangling
  refine ⟨h.dangling, h.kinds, fun directory name kind hk => ?_, fun e he hk => ?_, ?_, ?_⟩
  · rw [hentities, h.mentioned _ hk, mem_containments_iff]
  · rw [hentities, h.mentioned e hk] at he
    obtain ⟨directory, hdirectory⟩ := p.exists_of_mem_containments he
    have hfind := find?_containments directory e.name e.kind p
    rw [← hdirectory] at hfind
    obtain ⟨r, hr⟩ := Option.isSome_iff_exists.1 ((isSome_find?_iff Relation.target _ e).2 he)
    obtain ⟨f, hf, rfl⟩ := Option.map_eq_some_iff.1 (hfind.symm.trans hr)
    refine ⟨directory, f, hdirectory ▸ rfl, hf, ?_⟩
    rw [h.filter_target]
    exact congrArg Option.toList hr
  · rw [relationsOfKind_graph (by decide)]
    exact List.flatMap_congr fun d _ => d.filter_uses
  · rw [relationsOfKind_graph (by decide)]
    exact List.flatMap_congr fun d _ => d.filter_implementations

end Atlas.Golang
