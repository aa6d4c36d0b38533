import Atlas.Diagram.PlantUml
import Atlas.Proofs.Diagram.Pieces

/-!
# Layout and free text

The free texts of a diagram are the names of containers, the labels of nodes and edges, the titles
and lines of sections, and the lines of notes; its skeleton is what is left without them
(`Diagram.skeleton`). Each notation writes a diagram as lines in pieces, which make up its text
(`PlantUml.map_line_pieces`, `Mermaid.map_line_flowchartPieces`,
`Mermaid.map_line_classDiagramPieces`) and whose shapes depend on the skeleton only. So free texts
move no line of a text and change only those that show them (`sameLines_of_skeleton`).
-/

set_option linter.unusedSectionVars false

namespace Atlas

/-! ## Diagrams without their free texts -/

/-- The section with nothing in its lines and in its title. -/
def Section.skeleton (s : Section) : Section :=
  { s with title := s.title.map fun _ => "", lines := s.lines.map fun _ => "" }

/-- The note with nothing in its lines. -/
def Note.skeleton (n : Note) : Note :=
  { n with lines := n.lines.map fun _ => "" }

mutual

/-- The node with an empty label, and likewise all that is in it. -/
def Node.skeleton : Node → Node
  | ⟨shape, id, _, stereotype, style, sections, notes, children⟩ =>
    ⟨shape, id, "", stereotype, style, sections.map (·.skeleton), notes.map (·.skeleton),
      Node.skeletons children⟩

/-- The skeletons of several nodes. -/
def Node.skeletons : List Node → List Node
  | [] => []
  | n :: ns => n.skeleton :: Node.skeletons ns

end

mutual

/-- The container with an empty name, and likewise all that is in it. -/
def Container.skeleton : Container → Container
  | ⟨_, nodes, containers⟩ => ⟨"", Node.skeletons nodes, Container.skeletons containers⟩

/-- The skeletons of several containers. -/
def Container.skeletons : List Container → List Container
  | [] => []
  | c :: cs => c.skeleton :: Container.skeletons cs

end

/-- The edge with an empty label and an empty note. -/
def Edge.skeleton (e : Edge) : Edge :=
  { e with label := e.label.map fun _ => "", note := e.note.map fun _ => "" }

/-- The diagram without its free texts. Two diagrams have one skeleton exactly if they differ in the
contents of free texts only, with as many lines in each section and each note. -/
def Diagram.skeleton (d : Diagram) : Diagram :=
  { d with
    containers := Container.skeletons d.containers
    nodes := Node.skeletons d.nodes
    edges := d.edges.map (·.skeleton) }

theorem Node.skeletons_eq_map (ns : List Node) : Node.skeletons ns = ns.map (·.skeleton) := by
  induction ns with
  | nil => rfl
  | cons n ns ih => rw [Node.skeletons, ih, List.map_cons]

theorem Container.skeletons_eq_map (cs : List Container) :
    Container.skeletons cs = cs.map (·.skeleton) := by
  induction cs with
  | nil => rfl
  | cons c cs ih => rw [Container.skeletons, ih, List.map_cons]

/-! ## PlantUML -/

namespace PlantUml

open Piece

/-- The lines of a section in pieces. -/
def sectionPieces (indent : String) (s : Section) : List (List Piece) :=
  (if s.divider then [[fixed (indent ++ "  --")]] else []) ++
    (match s.title with
      | some title => [[fixed (indent ++ "  .. "), plain title, fixed " .."]]
      | none => []) ++
    s.lines.map fun l => [fixed (indent ++ "  "), plain l]

/-- The line of a note inside a node in pieces. -/
def inlineNotePieces (indent id : String) (note : Note) (i : ℕ) : List Piece :=
  [fixed (indent ++ "  note \""), quoted note.lines,
    fixed ("\" as N_" ++ id ++ "_" ++ toString (i + 1))]

/-- The lines of a note below a node in pieces. -/
def detachedNotePieces (indent id : String) (note : Note) : List (List Piece) :=
  [[fixed (indent ++ "note bottom of " ++ id)]] ++
    note.lines.map (fun l => [fixed indent, plain l]) ++ [[fixed (indent ++ "end note")]]

/-- The line that opens a node in pieces. -/
def headerPieces (indent : String) (shape : Shape) (label id : String)
    (stereotype : Option String) : List Piece :=
  [fixed (indent ++ shape.word ++ " \""), quoted [label],
    fixed ("\" as " ++ id ++
      (match stereotype with
        | some s => " <<" ++ s ++ ">>"
        | none => "") ++ " \x7b")]

mutual

/-- The lines of a node in pieces. -/
def nodePieces (depth : ℕ) : Node → List (List Piece)
  | ⟨shape, id, label, stereotype, _, sections, notes, children⟩ =>
    let indent := pad depth
    [headerPieces indent shape label id stereotype] ++
      sections.flatMap (sectionPieces indent) ++
      ((notes.filter (!·.detached)).zipIdx.map fun (n, i) => inlineNotePieces indent id n i) ++
      nodesPieces (depth + 1) children ++ [[fixed (indent ++ "\x7d")]] ++
      (notes.filter (·.detached)).flatMap (detachedNotePieces indent id)

/-- The lines of several nodes in pieces. -/
def nodesPieces (depth : ℕ) : List Node → List (List Piece)
  | [] => []
  | n :: ns => nodePieces depth n ++ nodesPieces depth ns

end

mutual

/-- The lines of a container in pieces. -/
def containerPieces (depth : ℕ) : Container → List (List Piece)
  | ⟨name, nodes, containers⟩ =>
    [[fixed (pad depth ++ "package \""), quoted [name], fixed "\" \x7b"]] ++
      nodesPieces depth nodes ++ containersPieces (depth + 1) containers ++
      [[fixed (pad depth ++ "\x7d")]]

/-- The lines of several containers in pieces. -/
def containersPieces (depth : ℕ) : List Container → List (List Piece)
  | [] => []
  | c :: cs => containerPieces depth c ++ containersPieces depth cs

end

/-- The lines of an edge in pieces. -/
def edgePieces (e : Edge) : List (List Piece) :=
  [fixed (e.source ++ countText e.sourceCount ++ " " ++ e.arrow ++ countText e.targetCount ++ " " ++
      e.target) ::
      (match e.label with
        | some l => [fixed " : ", plain l]
        | none => [])] ++
    (match e.note with
      | some note => [[fixed "note on link"], [fixed "  ", plain note], [fixed "end note"]]
      | none => [])

/-- The lines of a diagram in pieces. -/
def pieces (d : Diagram) : List (List Piece) :=
  [[fixed "@startuml"], [fixed ""]] ++
    (if d.preamble.isEmpty then [] else d.preamble.map ([fixed ·]) ++ [[fixed ""]]) ++
    [[fixed ("title " ++ d.title)], [fixed ""]] ++
    d.containers.flatMap (containerPieces 0 · ++ [[fixed ""]]) ++
    nodesPieces 0 d.nodes ++ d.edges.flatMap edgePieces ++ [[fixed "@enduml"]]

/-! ### The pieces make up the text -/

theorem map_line_sectionPieces (indent : String) (s : Section) :
    (sectionPieces indent s).map line = sectionLines indent s := by
  cases hd : s.divider <;> cases ht : s.title <;>
    simp [sectionPieces, sectionLines, hd, ht, Piece.text, String.append_assoc, Function.comp_def]

theorem line_inlineNotePieces (indent id : String) (note : Note) (i : ℕ) :
    line (inlineNotePieces indent id note i) = inlineNoteLine indent id note i := by
  simp [inlineNotePieces, inlineNoteLine, Piece.text, String.append_assoc]

theorem map_line_detachedNotePieces (indent id : String) (note : Note) :
    (detachedNotePieces indent id note).map line = detachedNoteLines indent id note := by
  simp [detachedNotePieces, detachedNoteLines, Piece.text, Function.comp_def]

theorem line_headerPieces (indent : String) (shape : Shape) (label id : String)
    (stereotype : Option String) :
    line (headerPieces indent shape label id stereotype) =
      nodeHeader indent shape label id stereotype := by
  cases stereotype <;> simp [headerPieces, nodeHeader, Piece.text, String.append_assoc]

mutual

theorem map_line_nodePieces (depth : ℕ) : ∀ n : Node,
    (nodePieces depth n).map line = nodeLines depth n
  | ⟨shape, id, label, stereotype, _, sections, notes, children⟩ => by
    simp [nodePieces, nodeLines, line_headerPieces, List.map_flatMap, map_line_sectionPieces,
      map_line_detachedNotePieces, line_inlineNotePieces, Function.comp_def,
      map_line_nodesPieces (depth + 1) children, Piece.text]

theorem map_line_nodesPieces (depth : ℕ) : ∀ ns : List Node,
    (nodesPieces depth ns).map line = nodesLines depth ns
  | [] => rfl
  | n :: ns => by
    rw [nodesPieces, List.map_append, map_line_nodePieces depth n, map_line_nodesPieces depth ns,
      nodesLines]

end

mutual

theorem map_line_containerPieces (depth : ℕ) : ∀ c : Container,
    (containerPieces depth c).map line = containerLines depth c
  | ⟨name, nodes, containers⟩ => by
    simp [containerPieces, containerLines, map_line_nodesPieces,
      map_line_containersPieces (depth + 1) containers, Piece.text, String.append_assoc]

theorem map_line_containersPieces (depth : ℕ) : ∀ cs : List Container,
    (containersPieces depth cs).map line = containersLines depth cs
  | [] => rfl
  | c :: cs => by
    rw [containersPieces, List.map_append, map_line_containerPieces depth c,
      map_line_containersPieces depth cs, containersLines]

end

theorem map_line_edgePieces (e : Edge) : (edgePieces e).map line = edgeLines e := by
  cases hl : e.label <;> cases hn : e.note <;>
    simp [edgePieces, edgeLines, hl, hn, Piece.text, String.append_assoc]

theorem map_line_pieces (d : Diagram) : (pieces d).map line = lines d := by
  cases hp : d.preamble.isEmpty <;>
    simp [pieces, lines, hp, List.map_flatMap, map_line_containerPieces, map_line_nodesPieces,
      map_line_edgePieces, Piece.text, Function.comp_def]

/-! ### Their shapes do not depend on free texts -/

theorem shapes_sectionPieces (indent : String) (s : Section) :
    shapes (sectionPieces indent s.skeleton) = shapes (sectionPieces indent s) := by
  cases ht : s.title <;> simp [sectionPieces, Section.skeleton, ht, shapes, shape, Function.comp_def]

theorem shapes_inlineNotePieces (indent id : String) (notes : List Note) :
    shapes (((notes.map (·.skeleton)).filter (!·.detached)).zipIdx.map fun (n, i) =>
        inlineNotePieces indent id n i) =
      shapes ((notes.filter (!·.detached)).zipIdx.map fun (n, i) =>
        inlineNotePieces indent id n i) := by
  rw [List.filter_map, List.zipIdx_map, List.map_map, shapes, shapes, List.map_map, List.map_map]
  rfl

theorem shapes_detachedNotePieces (indent id : String) (note : Note) :
    shapes (detachedNotePieces indent id note.skeleton) =
      shapes (detachedNotePieces indent id note) := by
  simp [detachedNotePieces, Note.skeleton, shapes, shape, Function.comp_def]

mutual

theorem shapes_nodePieces (depth : ℕ) : ∀ n : Node,
    shapes (nodePieces depth n.skeleton) = shapes (nodePieces depth n)
  | ⟨shape, id, label, stereotype, _, sections, notes, children⟩ => by
    have hdetached : (notes.map (·.skeleton)).filter (·.detached) =
        (notes.filter (·.detached)).map (·.skeleton) := List.filter_map
    simp only [Node.skeleton, nodePieces, shapes_append, shapes_nodesPieces (depth + 1) children,
      shapes_flatMap_map (shapes_sectionPieces (pad depth)), shapes_inlineNotePieces, hdetached,
      shapes_flatMap_map (shapes_detachedNotePieces (pad depth) id)]
    rfl

theorem shapes_nodesPieces (depth : ℕ) : ∀ ns : List Node,
    shapes (nodesPieces depth (Node.skeletons ns)) = shapes (nodesPieces depth ns)
  | [] => rfl
  | n :: ns => by
    rw [Node.skeletons, nodesPieces, nodesPieces, shapes_append, shapes_append,
      shapes_nodePieces depth n, shapes_nodesPieces depth ns]

end

mutual

theorem shapes_containerPieces (depth : ℕ) : ∀ c : Container,
    shapes (containerPieces depth c.skeleton) = shapes (containerPieces depth c)
  | ⟨name, nodes, containers⟩ => by
    simp only [Container.skeleton, containerPieces, shapes_append, shapes_nodesPieces,
      shapes_containersPieces (depth + 1) containers]
    rfl

theorem shapes_containersPieces (depth : ℕ) : ∀ cs : List Container,
    shapes (containersPieces depth (Container.skeletons cs)) = shapes (containersPieces depth cs)
  | [] => rfl
  | c :: cs => by
    rw [Container.skeletons, containersPieces, containersPieces, shapes_append, shapes_append,
      shapes_containerPieces depth c, shapes_containersPieces depth cs]

end

theorem shapes_edgePieces (e : Edge) : shapes (edgePieces e.skeleton) = shapes (edgePieces e) := by
  cases hl : e.label <;> cases hn : e.note <;>
    simp [edgePieces, Edge.skeleton, hl, hn, shapes, shape]

theorem shapes_pieces (d : Diagram) : shapes (pieces d.skeleton) = shapes (pieces d) := by
  have hcontainers : shapes ((d.containers.map (·.skeleton)).flatMap
        (containerPieces 0 · ++ [[fixed ""]])) =
      shapes (d.containers.flatMap (containerPieces 0 · ++ [[fixed ""]])) :=
    shapes_flatMap_map (fun c => by rw [shapes_append, shapes_containerPieces, shapes_append]) _
  simp only [Diagram.skeleton, pieces, shapes_append, Container.skeletons_eq_map, hcontainers,
    shapes_nodesPieces, shapes_flatMap_map shapes_edgePieces]

end PlantUml

/-! ## Mermaid -/

namespace Mermaid

open Piece

/-- The lines of a flowchart node in pieces. -/
def flowchartNodePieces (n : Node) : List (List Piece) :=
  [[fixed ("    " ++ n.id), boxed n.label]] ++
    match n.style with
    | some style => [[fixed ("    style " ++ n.id ++ " " ++ style)]]
    | none => []

/-- The line of a flowchart edge in pieces. -/
def flowchartEdgePieces (e : Edge) : List Piece :=
  match e.label with
  | some l => [fixed ("    " ++ e.source ++ " " ++ e.arrow ++ "|"), plain l,
      fixed ("| " ++ e.target)]
  | none => [fixed ("    " ++ e.source ++ " " ++ e.arrow ++ " " ++ e.target)]

/-- The lines of a flowchart in pieces. -/
def flowchartPieces (direction : String) (d : Diagram) : List (List Piece) :=
  [[fixed ("graph " ++ direction)]] ++ (nodes d).flatMap flowchartNodePieces ++
    d.edges.map flowchartEdgePieces

/-- The lines of a class in pieces. -/
def classPieces (n : Node) : List (List Piece) :=
  let members := n.sections.flatMap (·.lines)
  if members.isEmpty then [[fixed ("    class " ++ n.id)]]
  else
    [[fixed ("    class " ++ n.id ++ " \x7b")]] ++
      (match n.stereotype with
        | some s => [[fixed ("        <<" ++ s ++ ">>")]]
        | none => []) ++
      members.map (fun m => [fixed "        ", plain m]) ++ [[fixed "    \x7d"]]

/-- The line of an edge between classes in pieces. -/
def classEdgePieces (e : Edge) : List Piece :=
  fixed ("    " ++ e.source ++ " " ++ e.arrow ++ " " ++ e.target) ::
    match e.label with
    | some l => [fixed " : ", plain l]
    | none => []

/-- The lines of a class diagram in pieces. -/
def classDiagramPieces (d : Diagram) : List (List Piece) :=
  [[fixed "classDiagram"]] ++ (nodes d).flatMap classPieces ++ d.edges.map classEdgePieces

theorem map_line_flowchartPieces (direction : String) (d : Diagram) :
    (flowchartPieces direction d).map line = flowchartLines d direction := by
  have hnode : ∀ n, (flowchartNodePieces n).map line = flowchartNodeLines n := fun n => by
    cases hs : n.style <;> simp [flowchartNodePieces, flowchartNodeLines, hs, Piece.text]
  have hedge : ∀ e, line (flowchartEdgePieces e) = flowchartEdgeLine e := fun e => by
    cases hl : e.label <;>
      simp [flowchartEdgePieces, flowchartEdgeLine, hl, Piece.text, String.append_assoc]
  simp [flowchartPieces, flowchartLines, List.map_flatMap, hnode, hedge, Piece.text,
    Function.comp_def]

theorem map_line_classDiagramPieces (d : Diagram) :
    (classDiagramPieces d).map line = classDiagramLines d := by
  have hnode : ∀ n, (classPieces n).map line = classLines n := fun n => by
    cases hs : n.stereotype <;> cases hm : (n.sections.flatMap (·.lines)).isEmpty <;>
      simp [classPieces, classLines, hs, hm, Piece.text, Function.comp_def]
  have hedge : ∀ e, line (classEdgePieces e) = classEdgeLine e := fun e => by
    cases hl : e.label <;>
      simp [classEdgePieces, classEdgeLine, hl, Piece.text, String.append_assoc]
  simp [classDiagramPieces, classDiagramLines, List.map_flatMap, hnode, hedge, Piece.text,
    Function.comp_def]

mutual

theorem containerNodes_skeleton : ∀ c : Container,
    containerNodes c.skeleton = (containerNodes c).map (·.skeleton)
  | ⟨_, nodes, containers⟩ => by
    rw [Container.skeleton, containerNodes, containerNodes, containersNodes_skeletons containers,
      Node.skeletons_eq_map, List.map_append]

theorem containersNodes_skeletons : ∀ cs : List Container,
    containersNodes (Container.skeletons cs) = (containersNodes cs).map (·.skeleton)
  | [] => rfl
  | c :: cs => by
    rw [Container.skeletons, containersNodes, containersNodes, containerNodes_skeleton c,
      containersNodes_skeletons cs, List.map_append]

end

theorem nodes_skeleton (d : Diagram) : nodes d.skeleton = (nodes d).map (·.skeleton) := by
  simp only [nodes, Diagram.skeleton, containersNodes_skeletons, Node.skeletons_eq_map,
    List.map_append]

theorem shapes_flowchartPieces (direction : String) (d : Diagram) :
    shapes (flowchartPieces direction d.skeleton) = shapes (flowchartPieces direction d) := by
  have hnode : ∀ n : Node, shapes (flowchartNodePieces n.skeleton) =
      shapes (flowchartNodePieces n) := by
    rintro ⟨shape, id, label, stereotype, style, sections, notes, children⟩
    rfl
  have hedge : ∀ e : Edge, (flowchartEdgePieces e.skeleton).map shape =
      (flowchartEdgePieces e).map shape := fun e => by
    cases hl : e.label <;> simp [flowchartEdgePieces, Edge.skeleton, hl, shape]
  rw [flowchartPieces, flowchartPieces, shapes_append, shapes_append, shapes_append, shapes_append,
    nodes_skeleton, shapes_flatMap_map hnode]
  exact congrArg _ (shapes_map_map hedge d.edges)

theorem shapes_classDiagramPieces (d : Diagram) :
    shapes (classDiagramPieces d.skeleton) = shapes (classDiagramPieces d) := by
  have hnode : ∀ n : Node, shapes (classPieces n.skeleton) = shapes (classPieces n) := by
    rintro ⟨shape, id, label, stereotype, style, sections, notes, children⟩
    have hmembers : (sections.map (·.skeleton)).flatMap (·.lines) =
        (sections.flatMap (·.lines)).map fun _ => "" := by
      rw [List.flatMap_map, List.map_flatMap]
      rfl
    simp only [Node.skeleton, classPieces, hmembers, List.isEmpty_map]
    split
    · rfl
    · simp [shapes, Piece.shape, Function.comp_def]
  have hedge : ∀ e : Edge, (classEdgePieces e.skeleton).map shape =
      (classEdgePieces e).map shape := fun e => by
    cases hl : e.label <;> simp [classEdgePieces, Edge.skeleton, hl, shape]
  rw [classDiagramPieces, classDiagramPieces, shapes_append, shapes_append, shapes_append,
    shapes_append, nodes_skeleton, shapes_flatMap_map hnode]
  exact congrArg _ (shapes_map_map hedge d.edges)

end Mermaid

/-! ## All notations -/

open Piece

/-- Diagrams that differ in their free texts only have texts with the same number of lines in every
notation, and these are the same on every line that shows no free text. -/
theorem sameLines_of_skeleton {d e : Diagram} (h : d.skeleton = e.skeleton) (direction : String) :
    SameLines (document (PlantUml.pieces d)) (PlantUml.render d) (PlantUml.render e) ∧
      SameLines (document (Mermaid.flowchartPieces direction d)) (Mermaid.flowchart d direction)
        (Mermaid.flowchart e direction) ∧
      SameLines (document (Mermaid.classDiagramPieces d)) (Mermaid.classDiagram d)
        (Mermaid.classDiagram e) := by
  have hshapes : ∀ pieces : Diagram → List (List Piece),
      (∀ d, shapes (pieces d.skeleton) = shapes (pieces d)) → shapes (pieces d) = shapes (pieces e) :=
    fun pieces hp => by rw [← hp d, h, hp e]
  refine ⟨?_, ?_, ?_⟩
  · rw [PlantUml.render, PlantUml.render, ← PlantUml.map_line_pieces, ← PlantUml.map_line_pieces]
    exact sameLines_of_shapes (hshapes _ PlantUml.shapes_pieces)
  · rw [Mermaid.flowchart, Mermaid.flowchart, ← Mermaid.map_line_flowchartPieces,
      ← Mermaid.map_line_flowchartPieces]
    exact sameLines_of_shapes (hshapes _ (Mermaid.shapes_flowchartPieces direction))
  · rw [Mermaid.classDiagram, Mermaid.classDiagram, ← Mermaid.map_line_classDiagramPieces,
      ← Mermaid.map_line_classDiagramPieces]
    exact sameLines_of_shapes (hshapes _ Mermaid.shapes_classDiagramPieces)

/-- A diagram with one text wherever it has free text. -/
def repeatedDiagram (text : String) : Diagram where
  title := "Shop"
  containers := [{
    name := text
    nodes := [{
      shape := .entity, id := "orders", label := text, style := some "fill:#ddf"
      sections := [{ title := some text, divider := true, lines := [text, text] }]
      notes := [{ lines := [text, text] }, { lines := [text, text], detached := true }]
      children := [{ shape := .classBox, id := "lines", label := text }] }]
    containers := [{ name := text, nodes := [{ shape := .component, id := "web", label := text }] }] }]
  edges := [{ source := "web", arrow := "-->", target := "orders", label := some text
              note := some text }]

theorem skeleton_repeatedDiagram (text : String) :
    (repeatedDiagram text).skeleton = repeatedDiagram "" :=
  rfl

theorem sameLines_of_skeleton_repeated :
    (repeatedDiagram "open").skeleton = (repeatedDiagram "\x7d\nend note\r\n@enduml").skeleton ∧
      SameLines (document (PlantUml.pieces (repeatedDiagram "open")))
        (PlantUml.render (repeatedDiagram "open"))
        (PlantUml.render (repeatedDiagram "\x7d\nend note\r\n@enduml")) ∧
      SameLines (document (Mermaid.flowchartPieces "TD" (repeatedDiagram "open")))
        (Mermaid.flowchart (repeatedDiagram "open") "TD")
        (Mermaid.flowchart (repeatedDiagram "\x7d\nend note\r\n@enduml") "TD") ∧
      SameLines (document (Mermaid.classDiagramPieces (repeatedDiagram "open")))
        (Mermaid.classDiagram (repeatedDiagram "open"))
        (Mermaid.classDiagram (repeatedDiagram "\x7d\nend note\r\n@enduml")) := by
  have h : (repeatedDiagram "open").skeleton =
      (repeatedDiagram "\x7d\nend note\r\n@enduml").skeleton := by
    rw [skeleton_repeatedDiagram, skeleton_repeatedDiagram]
  exact ⟨h, sameLines_of_skeleton h "TD"⟩

end Atlas
