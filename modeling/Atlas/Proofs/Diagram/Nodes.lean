import Atlas.Diagram.Mermaid
import Atlas.Proofs.Diagram.PlantUml

/-!
# Nodes of diagrams

A node with one more section or note is known by what it was known by before. Containers are added
to a diagram in turn, those without nodes left out (`foldl_addContainer`), and so a diagram that is
made of groups of nodes draws all of them, group by group (`drawnNodes_groups`).
-/

set_option linter.unusedSectionVars false

namespace Atlas

/-! ## One more section or note -/

namespace Node

@[simp] theorem id_addSection (n : Node) (s : Section) : (n.addSection s).id = n.id := by
  rw [Node.addSection]
  split <;> rfl

@[simp] theorem label_addSection (n : Node) (s : Section) :
    (n.addSection s).label = n.label := by
  rw [Node.addSection]
  split <;> rfl

@[simp] theorem id_addNote (n : Node) (note : Note) : (n.addNote note).id = n.id := by
  rw [Node.addNote]
  split <;> rfl

@[simp] theorem label_addNote (n : Node) (note : Note) : (n.addNote note).label = n.label := by
  rw [Node.addNote]
  split <;> rfl

@[simp] theorem stereotype_addSection (n : Node) (s : Section) :
    (n.addSection s).stereotype = n.stereotype := by
  rw [Node.addSection]
  split <;> rfl

@[simp] theorem shape_addSection (n : Node) (s : Section) :
    (n.addSection s).shape = n.shape := by
  rw [Node.addSection]
  split <;> rfl

@[simp] theorem shape_addNote (n : Node) (note : Note) : (n.addNote note).shape = n.shape := by
  rw [Node.addNote]
  split <;> rfl

@[simp] theorem children_addNote (n : Node) (note : Note) :
    (n.addNote note).children = n.children := by
  rw [Node.addNote]
  split <;> rfl

/-- Nodes are put inside one after another. -/
theorem foldl_addChild (cs : List Node) (n : Node) :
    cs.foldl Node.addChild n = { n with children := n.children ++ cs } := by
  induction cs generalizing n with
  | nil =>
    cases n
    rw [List.foldl_nil, List.append_nil]
  | cons c cs ih =>
    rw [List.foldl_cons, ih, Node.addChild, List.append_assoc, List.singleton_append]

end Node

/-! ## Containers -/

section AddContainers

variable (cs : List Container) (d : Diagram)

/-- Containers are added in turn, those without nodes left out. -/
theorem foldl_addContainer : cs.foldl Diagram.addContainer d =
    { d with containers := d.containers ++ cs.filter (!·.isEmpty) } := by
  induction cs generalizing d with
  | nil => rw [List.foldl_nil, List.filter_nil, List.append_nil]
  | cons c cs ih =>
    rw [List.foldl_cons, ih, Diagram.addContainer]
    cases hc : c.isEmpty with
    | true => rw [if_pos rfl, List.filter_cons_of_neg (by simp [hc])]
    | false =>
      rw [if_neg Bool.false_ne_true, List.filter_cons_of_pos (by simp [hc]), List.append_assoc,
        List.singleton_append]

/-- Nothing is lost with containers that are left out where nothing comes of them. -/
theorem flatMap_filter_of_isEmpty {β : Type} {f : Container → List β}
    (hf : ∀ c, c.isEmpty = true → f c = []) :
    (cs.filter (!·.isEmpty)).flatMap f = cs.flatMap f := by
  induction cs with
  | nil => rfl
  | cons c cs ih =>
    cases hc : c.isEmpty with
    | true =>
      rw [List.filter_cons_of_neg (by simp [hc]), ih, List.flatMap_cons, hf c hc, List.nil_append]
    | false => rw [List.filter_cons_of_pos (by simp [hc]), List.flatMap_cons, ih, List.flatMap_cons]

/-- Nothing that comes of nodes is lost with a container that is left out. -/
theorem flatMap_filter_isEmpty {β : Type} {f : Container → List β}
    (hf : ∀ c, c.nodes = [] → f c = []) :
    (cs.filter (!·.isEmpty)).flatMap f = cs.flatMap f := by
  refine flatMap_filter_of_isEmpty cs fun c hc => hf c ?_
  obtain ⟨name, nodes, containers⟩ := c
  rw [Container.isEmpty, Bool.and_eq_true, List.isEmpty_iff] at hc
  exact hc.1

end AddContainers

/-! ## Nodes inside containers -/

theorem containersNodes_eq (cs : List Container) :
    Mermaid.containersNodes cs = cs.flatMap Mermaid.containerNodes := by
  induction cs with
  | nil => rfl
  | cons c cs ih => rw [Mermaid.containersNodes, ih, List.flatMap_cons]

mutual

theorem containerNodes_of_isEmpty : ∀ c : Container, c.isEmpty = true →
    Mermaid.containerNodes c = []
  | ⟨_, nodes, containers⟩, h => by
    rw [Container.isEmpty, Bool.and_eq_true, List.isEmpty_iff] at h
    rw [Mermaid.containerNodes, h.1, containersNodes_of_allEmpty containers h.2, List.append_nil]

theorem containersNodes_of_allEmpty : ∀ cs : List Container, Container.allEmpty cs = true →
    Mermaid.containersNodes cs = []
  | [], _ => rfl
  | c :: cs, h => by
    rw [Container.allEmpty, Bool.and_eq_true] at h
    rw [Mermaid.containersNodes, containerNodes_of_isEmpty c h.1, containersNodes_of_allEmpty cs h.2,
      List.append_nil]

end

/-- No node is lost with the containers that are left out. -/
theorem containersNodes_filter (cs : List Container) :
    Mermaid.containersNodes (cs.filter (!·.isEmpty)) = Mermaid.containersNodes cs := by
  rw [containersNodes_eq, containersNodes_eq,
    flatMap_filter_of_isEmpty cs containerNodes_of_isEmpty]

/-! ## Groups of nodes -/

/-- Groups of nodes are added as containers. -/
theorem foldl_groups (groups : List (String × List Node)) (d : Diagram) :
    groups.foldl (fun d (name, nodes) => d.addContainer { name, nodes }) d =
      { d with containers := d.containers ++
          (groups.map fun g => { name := g.1, nodes := g.2 }).filter (!·.isEmpty) } := by
  rw [← foldl_addContainer, List.foldl_map]

/-- The nodes of groups that are added as containers. -/
theorem drawnNodes_groups (groups : List (String × List Node)) {d : Diagram}
    (hcontainers : d.containers = []) (hnodes : d.nodes = []) :
    PlantUml.drawnNodes (groups.foldl (fun d (name, nodes) => d.addContainer { name, nodes }) d) =
      groups.flatMap Prod.snd := by
  rw [foldl_groups, PlantUml.drawnNodes, hcontainers, hnodes, List.nil_append,
    flatMap_filter_isEmpty _ fun _ h => h, List.append_nil, List.flatMap_map]

theorem edges_groups (groups : List (String × List Node)) (d : Diagram) :
    (groups.foldl (fun d (name, nodes) => d.addContainer { name, nodes }) d).edges = d.edges := by
  rw [foldl_groups]

end Atlas
