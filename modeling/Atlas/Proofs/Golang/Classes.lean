import Atlas.Golang.ClassDiagram
import Atlas.Proofs.Diagram.Nodes
import Atlas.Proofs.Firsts
import Mathlib.Data.List.Nodup

/-!
# Classes of a Go project

A class is known by the package and the name of its type, wherever that is declared. Of the types
with one class name the first is drawn, with its own members and edges (`nodes_classDiagram`,
`edges_classDiagram`), so the types of a project are all drawn just if no two have one class name
(`keepsTypes_iff`). Where no package has an underscore in its name, that is so just if no package of
another directory has the same name and a type of the same name (`classNames_nodup_iff`).
-/

set_option linter.unusedSectionVars false

namespace Atlas.Golang

/-! ## Declared types -/

/-- A type, by where it is declared. -/
structure TypeName where
  directory : String
  package : String
  name : String
  deriving DecidableEq, Repr

/-- The identifier of the class of a type. -/
def TypeName.className (t : TypeName) : String :=
  Golang.className t.package t.name

/-- The structs and interfaces of a file. -/
def SourceFile.typeNames (directory : String) (f : SourceFile) : List TypeName :=
  (f.structs.map (·.name) ++ f.interfaces.map (·.name)).map (TypeName.mk directory f.package)

/-- The structs and interfaces of a project. -/
def Project.typeNames (p : Project) : List TypeName :=
  p.directories.flatMap fun d => d.files.flatMap (SourceFile.typeNames d.path)

theorem id_node_struct (package : String) (s : Struct) :
    (s.node package).id = className package s.name := by
  simp [Struct.node]

theorem id_node_interface (package : String) (i : Interface) :
    (i.node package).id = className package i.name := by
  simp [Interface.node]

/-- The classes of a project are those of its types. -/
theorem ids_classes (p : Project) :
    p.classes.map (·.1.id) = p.typeNames.map TypeName.className := by
  rw [Project.classes, Project.typeNames, List.map_flatMap, List.map_flatMap]
  refine List.flatMap_congr fun d _ => ?_
  rw [List.map_flatMap, List.map_flatMap]
  refine List.flatMap_congr fun f _ => ?_
  simp [SourceFile.classes, SourceFile.typeNames, TypeName.className, id_node_struct,
    id_node_interface, Function.comp_def]

/-- All edges of a class start at it. -/
theorem source_of_mem_classes {p : Project} {c : Class} (hc : c ∈ p.classes) :
    ∀ e ∈ c.2, e.source = c.1.id := by
  obtain ⟨d, -, hd⟩ := List.mem_flatMap.1 hc
  obtain ⟨f, -, hf⟩ := List.mem_flatMap.1 hd
  rcases List.mem_append.1 hf with h | h
  · obtain ⟨s, -, rfl⟩ := List.mem_map.1 h
    refine List.forall_mem_append.2 ⟨fun e he => ?_, List.forall_mem_map.2 fun i _ => ?_⟩
    · obtain ⟨field, -, hfield⟩ := List.mem_filterMap.1 he
      obtain ⟨_, -, rfl⟩ := Option.map_eq_some_iff.1 hfield
      exact (id_node_struct f.package s).symm
    · exact (id_node_struct f.package s).symm
  · obtain ⟨i, -, rfl⟩ := List.mem_map.1 h
    exact fun e he => absurd he List.not_mem_nil

/-! ## What is drawn -/

theorem firstClasses_eq (cs : List Class) : firstClasses cs = firsts (·.1.id) cs := by
  rw [← foldl_concatNew, firstClasses]
  refine congrArg (fun f => cs.foldl f []) (funext₂ fun kept c => ?_)
  have hany : kept.any (·.1.id == c.1.id) = true ↔ c.1.id ∈ kept.map (·.1.id) := by simp
  exact if_congr hany rfl rfl

theorem distinctEdges_eq (es : List Edge) : distinctEdges es = firsts id es := by
  rw [← foldl_concatNew, distinctEdges]
  refine congrArg (fun f => es.foldl f []) (funext₂ fun kept e => ?_)
  have hcontains : kept.contains e = true ↔ id e ∈ kept.map id := by simp
  exact if_congr hcontains rfl rfl

theorem nodes_classDiagram (p : Project) :
    p.classDiagram.nodes = (firsts (·.1.id) p.classes).map (·.1) := by
  rw [← firstClasses_eq]
  rfl

theorem edges_classDiagram (p : Project) :
    p.classDiagram.edges = firsts id ((firsts (·.1.id) p.classes).flatMap (·.2)) := by
  rw [← firstClasses_eq, ← distinctEdges_eq]
  rfl

/-- Edges of classes with identifiers of their own are only repeated within a class. -/
theorem firsts_flatMap_edges {cs : List Class} (hsource : ∀ c ∈ cs, ∀ e ∈ c.2, e.source = c.1.id)
    (hids : (cs.map (·.1.id)).Nodup) :
    firsts id (cs.flatMap (·.2)) = cs.flatMap fun c => firsts id c.2 := by
  induction cs using List.reverseRecOn with
  | nil => rfl
  | append_singleton cs c ih =>
    obtain ⟨hcs, hc⟩ := List.forall_mem_append.1 hsource
    rw [List.map_append, List.nodup_append] at hids
    obtain ⟨hnodup, -, hnew⟩ := hids
    rw [List.flatMap_append, List.flatMap_append, List.flatMap_singleton, List.flatMap_singleton,
      firsts_append_of_disjoint id fun e he hmem => ?_, ih hcs hnodup]
    rw [List.map_id] at hmem
    obtain ⟨b, hb, heb⟩ := List.mem_flatMap.1 hmem
    exact hnew _ (List.mem_map_of_mem hb) _ (List.mem_singleton_self _)
      ((hcs b hb e heb).symm.trans (hc c List.mem_cons_self e he))

/-! ## Types that are kept apart -/

/-- Every type has a class of its own, with its own members and with its own edges, each once. -/
structure Project.KeepsTypes (p : Project) : Prop where
  nodes : p.classDiagram.nodes = p.classes.map (·.1)
  ids : (p.classDiagram.nodes.map (·.id)).Nodup
  edges : p.classDiagram.edges = p.classes.flatMap fun c => firsts id c.2

theorem keepsTypes_iff {p : Project} :
    p.KeepsTypes ↔ (p.typeNames.map TypeName.className).Nodup := by
  rw [← ids_classes]
  constructor
  · intro h
    have hids := h.ids
    rwa [h.nodes, List.map_map] at hids
  · intro h
    have hnodes : p.classDiagram.nodes = p.classes.map (·.1) :=
      (nodes_classDiagram p).trans (congrArg _ ((firsts_eq_self_iff _ _).2 h))
    refine ⟨hnodes, ?_, ?_⟩
    · rwa [hnodes, List.map_map]
    · rw [edges_classDiagram, (firsts_eq_self_iff _ _).2 h]
      exact firsts_flatMap_edges (fun c => source_of_mem_classes) h

/-- Without underscores in the names of packages a class name tells both names. -/
theorem className_eq_iff {s t : TypeName} (hs : '_' ∉ s.package.toList)
    (ht : '_' ∉ t.package.toList) :
    s.className = t.className ↔ (s.package, s.name) = (t.package, t.name) := by
  refine ⟨fun h => ?_, fun h => ?_⟩
  · have hlist : s.package.toList ++ '_' :: s.name.toList =
        t.package.toList ++ '_' :: t.name.toList := by
      simpa [TypeName.className, className] using congrArg String.toList h
    have hbefore : ∀ {p : List Char} (n : List Char), '_' ∉ p →
        (p ++ '_' :: n).takeWhile (· ≠ '_') = p := fun {p} n hp => by
      rw [List.takeWhile_append_of_pos fun c hc => decide_eq_true (ne_of_mem_of_not_mem hc hp)]
      simp
    have hp : s.package.toList = t.package.toList := by
      rw [← hbefore s.name.toList hs, hlist, hbefore t.name.toList ht]
    rw [hp] at hlist
    have hn := (List.cons.inj (List.append_cancel_left hlist)).2
    rw [String.toList_inj.1 hp, String.toList_inj.1 hn]
  · obtain ⟨hp, hn⟩ := Prod.mk.inj h
    rw [TypeName.className, TypeName.className, hp, hn]

theorem classNames_nodup_iff {ts : List TypeName} (h : ∀ t ∈ ts, '_' ∉ t.package.toList) :
    (ts.map TypeName.className).Nodup ↔ (ts.map fun t => (t.package, t.name)).Nodup := by
  rw [List.Nodup, List.Nodup, List.pairwise_map, List.pairwise_map]
  exact List.Pairwise.iff_of_mem fun hs ht => not_congr (className_eq_iff (h _ hs) (h _ ht))

/-- What the class diagram of a project shows of its types: of those with one class name the first,
with its own members and edges. All types have classes of their own just if no two have one class
name; where no directory declares a type twice in one package, if no two that differ in directory,
package or name have one; and without underscores in the names of packages, if no two have one name
and packages of one name. -/
structure Project.ShowsTypes (p : Project) : Prop where
  ids : p.classes.map (·.1.id) = p.typeNames.map TypeName.className
  nodes : p.classDiagram.nodes = (firsts (·.1.id) p.classes).map (·.1)
  edges : p.classDiagram.edges = firsts id ((firsts (·.1.id) p.classes).flatMap (·.2))
  kept : p.KeepsTypes ↔ (p.typeNames.map TypeName.className).Nodup
  kept_of_nodup : p.typeNames.Nodup → (p.KeepsTypes ↔
    ∀ s ∈ p.typeNames, ∀ t ∈ p.typeNames, s.className = t.className → s = t)
  kept_of_plain : (∀ t ∈ p.typeNames, '_' ∉ t.package.toList) →
    (p.KeepsTypes ↔ (p.typeNames.map fun t => (t.package, t.name)).Nodup)

theorem types_shown (p : Project) : p.ShowsTypes where
  ids := ids_classes p
  nodes := nodes_classDiagram p
  edges := edges_classDiagram p
  kept := keepsTypes_iff
  kept_of_nodup h := by rw [keepsTypes_iff, List.nodup_map_iff_inj_on h]
  kept_of_plain h := by rw [keepsTypes_iff, classNames_nodup_iff h]

/-- A project with two programs, each with a configuration of its own. -/
def samplePrograms : Project where
  directories :=
    [⟨"proj/a", [{ name := "proj/a/main.go", package := "main"
                   structs := [{ name := "Config", fields := [⟨"Host", "string", none, ""⟩] }] }]⟩,
      ⟨"proj/b", [{ name := "proj/b/main.go", package := "main"
                    structs := [{ name := "Config", fields := [⟨"Port", "int", none, ""⟩] }] }]⟩]

/-- Two types of one name in two packages `main` are drawn as one class, with the members of the
first. -/
theorem types_merged : samplePrograms.typeNames.Nodup ∧
    samplePrograms.typeNames.map (·.directory) = ["proj/a", "proj/b"] ∧
    samplePrograms.classDiagram.nodes.map (·.id) = ["main_Config"] ∧
    samplePrograms.classDiagram.nodes.flatMap (·.sections.flatMap (·.lines)) = ["+Host string"] ∧
    ¬samplePrograms.KeepsTypes := by
  refine ⟨by decide +kernel, by decide +kernel, by decide +kernel, by decide +kernel, ?_⟩
  rw [keepsTypes_iff]
  decide +kernel

end Atlas.Golang
