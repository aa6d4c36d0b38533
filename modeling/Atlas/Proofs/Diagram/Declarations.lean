import Atlas.Proofs.Diagram.Aliases
import Atlas.Proofs.Diagram.Pieces

/-!
# Nodes and edges in the texts of a diagram

The lines of a text are annotated with what they are there for (`Shows`) : a line declares a node or
draws an edge, in the form that the notation has for it, or does neither. A flowchart and a class
diagram declare the same nodes, those of the diagram itself and of its containers at any depth, but
none that is inside another node. A PlantUML text declares these and all nodes inside them. So the
three declare the same nodes just if no node has nodes inside it, and all three draw the edges of
the diagram in turn (`shown_nodes`).

Where nothing else in a diagram is written like a declaration (`Readable`), readers of single lines,
which know nothing of the diagram, find just these nodes in the texts (`Readable.readsNodes`).
-/

set_option linter.unusedSectionVars false

namespace Atlas

/-! ## Lines and what they are there for -/

/-- What a line in the text of a diagram is there for. -/
inductive Purpose where
  /-- It declares the node with this identifier. -/
  | declares (id : String)
  /-- It draws this edge. -/
  | joins (e : Edge)
  | other

namespace Purpose

/-- The identifier of the node that is declared. -/
def declared? : Purpose → Option String
  | declares id => some id
  | _ => none

/-- The edge that is drawn. -/
def joined? : Purpose → Option Edge
  | joins e => some e
  | _ => none

end Purpose

/-- A line in the text of a diagram. -/
structure Line where
  purpose : Purpose
  text : String

namespace Line

/-- Lines that declare nothing and draw no edge. -/
def others (ls : List String) : List Line :=
  ls.map (⟨.other, ·⟩)

/-- Lines of which the first one has a purpose. -/
def headed (p : Purpose) : List String → List Line
  | [] => []
  | l :: ls => ⟨p, l⟩ :: others ls

end Line

/-- These are the lines of a text, each in the form that its purpose asks for; they declare nodes
with these identifiers and draw these edges, in this order. -/
structure Shows (form : Purpose → String → Prop) (ls : List Line) (texts ids : List String)
    (es : List Edge) : Prop where
  texts : ls.map (·.text) = texts
  formed : ∀ l ∈ ls, form l.purpose l.text
  declared : ls.filterMap (·.purpose.declared?) = ids
  joined : ls.filterMap (·.purpose.joined?) = es

namespace Shows

variable {form : Purpose → String → Prop} {ls ls' : List Line} {texts texts' ids ids' : List String}
  {es es' : List Edge}

theorem nil : Shows form [] [] [] [] :=
  ⟨rfl, List.forall_mem_nil _, rfl, rfl⟩

theorem append (h : Shows form ls texts ids es) (h' : Shows form ls' texts' ids' es') :
    Shows form (ls ++ ls') (texts ++ texts') (ids ++ ids') (es ++ es') where
  texts := by rw [List.map_append, h.texts, h'.texts]
  formed := List.forall_mem_append.2 ⟨h.formed, h'.formed⟩
  declared := by rw [List.filterMap_append, h.declared, h'.declared]
  joined := by rw [List.filterMap_append, h.joined, h'.joined]

theorem others {texts : List String} (h : ∀ t ∈ texts, form .other t) :
    Shows form (Line.others texts) texts [] [] where
  texts := by rw [Line.others, List.map_map]; exact List.map_id texts
  formed := List.forall_mem_map.2 h
  declared := List.filterMap_eq_nil_iff.2 (List.forall_mem_map.2 fun _ _ => rfl)
  joined := List.filterMap_eq_nil_iff.2 (List.forall_mem_map.2 fun _ _ => rfl)

theorem declaration {id l : String} {texts : List String} (hl : form (.declares id) l)
    (h : ∀ t ∈ texts, form .other t) :
    Shows form (Line.headed (.declares id) (l :: texts)) (l :: texts) [id] [] := by
  have hhead : Shows form [⟨.declares id, l⟩] [l] [id] [] :=
    ⟨rfl, List.forall_mem_singleton.2 hl, rfl, rfl⟩
  exact hhead.append (others h)

theorem edge {e : Edge} {l : String} {texts : List String} (hl : form (.joins e) l)
    (h : ∀ t ∈ texts, form .other t) :
    Shows form (Line.headed (.joins e) (l :: texts)) (l :: texts) [] [e] := by
  have hhead : Shows form [⟨.joins e, l⟩] [l] [] [e] :=
    ⟨rfl, List.forall_mem_singleton.2 hl, rfl, rfl⟩
  exact hhead.append (others h)

/-- Parts that declare nodes and draw no edges. -/
theorem nodes {α : Type} {f : α → List Line} {g ids : α → List String} {as : List α}
    (h : ∀ a ∈ as, Shows form (f a) (g a) (ids a) []) :
    Shows form (as.flatMap f) (as.flatMap g) (as.flatMap ids) [] := by
  induction as with
  | nil => exact nil
  | cons a as ih =>
    obtain ⟨ha, has⟩ := List.forall_mem_cons.1 h
    exact ha.append (ih has)

/-- Parts of which each draws one edge. -/
theorem edges {f : Edge → List Line} {g : Edge → List String} {es : List Edge}
    (h : ∀ e ∈ es, Shows form (f e) (g e) [] [e]) :
    Shows form (es.flatMap f) (es.flatMap g) [] es := by
  induction es with
  | nil => exact nil
  | cons e es ih =>
    obtain ⟨he, hes⟩ := List.forall_mem_cons.1 h
    exact he.append (ih hes)

end Shows

/-- A line by itself, in which a reader of single lines finds the node that it declares, if any. -/
structure Legible (read : String → Option String) (p : Purpose) (l : String) : Prop where
  oneLine : OneLine l
  read : read l = p.declared?

/-- The nodes of a legible text are read in it. -/
theorem Shows.filterMap_read {read : String → Option String} {ls : List Line}
    {texts ids : List String} {es : List Edge} (h : Shows (Legible read) ls texts ids es) :
    (Text.lines (Text.unlines texts)).filterMap read = ids := by
  have hone : ∀ t ∈ texts, OneLine t := by
    rw [← h.texts]
    exact List.forall_mem_map.2 fun l hl => (h.formed l hl).oneLine
  have hread : ls.filterMap (fun l => read l.text) = ls.filterMap (·.purpose.declared?) :=
    List.filterMap_congr fun l hl => (h.formed l hl).read
  rw [Text.lines_unlines, Text.flatMap_lines_of_oneLine hone, ← h.texts, List.filterMap_map,
    ← h.declared, ← hread]
  rfl

/-! ## Mermaid -/

namespace Mermaid

/-- The lines of a flowchart. -/
def flowchartMarks (direction : String) (d : Diagram) : List Line :=
  Line.others ["graph " ++ direction] ++
    (nodes d).flatMap (fun n => Line.headed (.declares n.id) (flowchartNodeLines n)) ++
    d.edges.flatMap fun e => Line.headed (.joins e) [flowchartEdgeLine e]

/-- The lines of a class diagram. -/
def classMarks (d : Diagram) : List Line :=
  Line.others ["classDiagram"] ++
    (nodes d).flatMap (fun n => Line.headed (.declares n.id) (classLines n)) ++
    d.edges.flatMap fun e => Line.headed (.joins e) [classEdgeLine e]

/-- The line of the style of a flowchart node. -/
def styleLines (n : Node) : List String :=
  n.style.toList.map ("    style " ++ n.id ++ " " ++ ·)

/-- The lines inside a class. -/
def memberLines (n : Node) : List String :=
  n.stereotype.toList.map (fun s => "        <<" ++ s ++ ">>") ++
    (n.sections.flatMap (·.lines)).map ("        " ++ Text.singleLine ·) ++ ["    \x7d"]

theorem flowchartNodeLines_eq (n : Node) :
    flowchartNodeLines n = ("    " ++ n.id ++ nodeText n.label) :: styleLines n := by
  rw [flowchartNodeLines, styleLines]
  cases n.style <;> rfl

theorem classLines_eq (n : Node) :
    classLines n = ["    class " ++ n.id] ∨
      classLines n = ("    class " ++ n.id ++ " \x7b") :: memberLines n := by
  rw [classLines, memberLines]
  cases n.stereotype <;> split_ifs <;> simp

section Shown

variable {form : Purpose → String → Prop}

theorem shows_flowchart {direction : String} {d : Diagram}
    (hstart : form .other ("graph " ++ direction))
    (hnode : ∀ n ∈ nodes d, form (.declares n.id) ("    " ++ n.id ++ nodeText n.label) ∧
      ∀ l ∈ styleLines n, form .other l)
    (hedge : ∀ e ∈ d.edges, form (.joins e) (flowchartEdgeLine e)) :
    Shows form (flowchartMarks direction d) (flowchartLines d direction)
      ((nodes d).map (·.id)) d.edges := by
  have hnodes : ∀ n ∈ nodes d, Shows form (Line.headed (.declares n.id) (flowchartNodeLines n))
      (flowchartNodeLines n) [n.id] [] := fun n hn => by
    rw [flowchartNodeLines_eq]
    exact .declaration (hnode n hn).1 (hnode n hn).2
  have hedges : ∀ e ∈ d.edges, Shows form (Line.headed (.joins e) [flowchartEdgeLine e])
      [flowchartEdgeLine e] [] [e] := fun e he => .edge (hedge e he) (List.forall_mem_nil _)
  have hall := ((Shows.others (List.forall_mem_singleton.2 hstart)).append (.nodes hnodes)).append
    (.edges hedges)
  rw [flowchartLines, List.map_eq_flatMap, List.map_eq_flatMap]
  rwa [List.nil_append, List.append_nil] at hall

theorem shows_classDiagram {d : Diagram} (hstart : form .other "classDiagram")
    (hnode : ∀ n ∈ nodes d, form (.declares n.id) ("    class " ++ n.id) ∧
      form (.declares n.id) ("    class " ++ n.id ++ " \x7b") ∧ ∀ l ∈ memberLines n, form .other l)
    (hedge : ∀ e ∈ d.edges, form (.joins e) (classEdgeLine e)) :
    Shows form (classMarks d) (classDiagramLines d) ((nodes d).map (·.id)) d.edges := by
  have hnodes : ∀ n ∈ nodes d, Shows form (Line.headed (.declares n.id) (classLines n))
      (classLines n) [n.id] [] := fun n hn => by
    obtain ⟨hbare, hopen, hmembers⟩ := hnode n hn
    rcases classLines_eq n with h | h <;> rw [h]
    · exact .declaration hbare (List.forall_mem_nil _)
    · exact .declaration hopen hmembers
  have hedges : ∀ e ∈ d.edges, Shows form (Line.headed (.joins e) [classEdgeLine e])
      [classEdgeLine e] [] [e] := fun e he => .edge (hedge e he) (List.forall_mem_nil _)
  have hall := ((Shows.others (List.forall_mem_singleton.2 hstart)).append (.nodes hnodes)).append
    (.edges hedges)
  rw [classDiagramLines, List.map_eq_flatMap, List.map_eq_flatMap]
  rwa [List.nil_append, List.append_nil] at hall

end Shown

end Mermaid

/-! ## PlantUML -/

namespace PlantUml

/-- The lines of a node behind its header. -/
def innerLines (depth : ℕ) (n : Node) : List String :=
  n.sections.flatMap (sectionLines (pad depth)) ++
    (n.notes.filter (!·.detached)).zipIdx.map fun q => inlineNoteLine (pad depth) n.id q.1 q.2

/-- The lines of a node behind the nodes inside it. -/
def closingLines (depth : ℕ) (n : Node) : List String :=
  (pad depth ++ "\x7d") ::
    (n.notes.filter (·.detached)).flatMap (detachedNoteLines (pad depth) n.id)

/-- The line by which a container opens. -/
def packageLine (depth : ℕ) (name : String) : String :=
  pad depth ++ "package \"" ++ Text.escape name ++ "\" \x7b"

/-- The line of an edge. -/
def edgeLine (e : Edge) : String :=
  e.source ++ countText e.sourceCount ++ " " ++ e.arrow ++ countText e.targetCount ++ " " ++
    e.target ++
    match e.label with
    | some l => " : " ++ Text.singleLine l
    | none => ""

/-- The lines of the note on an edge. -/
def edgeNoteLines (e : Edge) : List String :=
  match e.note with
  | some note => ["note on link", "  " ++ Text.singleLine note, "end note"]
  | none => []

mutual

/-- The lines of a node. -/
def nodeMarks (depth : ℕ) : Node → List Line
  | ⟨shape, id, label, stereotype, style, sections, notes, children⟩ =>
    let n : Node := ⟨shape, id, label, stereotype, style, sections, notes, children⟩
    Line.headed (.declares id) (nodeHeader (pad depth) shape label id stereotype ::
      innerLines depth n) ++ nodesMarks (depth + 1) children ++ Line.others (closingLines depth n)

/-- The lines of several nodes. -/
def nodesMarks (depth : ℕ) : List Node → List Line
  | [] => []
  | n :: ns => nodeMarks depth n ++ nodesMarks depth ns

end

mutual

/-- The lines of a container. -/
def containerMarks (depth : ℕ) : Container → List Line
  | ⟨name, nodes, containers⟩ =>
    Line.others [packageLine depth name] ++ nodesMarks depth nodes ++
      containersMarks (depth + 1) containers ++ Line.others [pad depth ++ "\x7d"]

/-- The lines of several containers. -/
def containersMarks (depth : ℕ) : List Container → List Line
  | [] => []
  | c :: cs => containerMarks depth c ++ containersMarks depth cs

end

/-- The lines of a diagram. -/
def marks (d : Diagram) : List Line :=
  Line.others (opening d ++ ["title " ++ d.title, ""]) ++
    d.containers.flatMap (containerMarks 0 · ++ Line.others [""]) ++ nodesMarks 0 d.nodes ++
    d.edges.flatMap (fun e => Line.headed (.joins e) (edgeLines e)) ++ Line.others ["@enduml"]

section Shown

variable (form : Purpose → String → Prop)

/-- The lines of a node itself have their forms. -/
structure NodeFormed (n : Node) : Prop where
  header : ∀ depth, form (.declares n.id)
    (nodeHeader (pad depth) n.shape n.label n.id n.stereotype)
  inner : ∀ depth, ∀ l ∈ innerLines depth n, form .other l
  closing : ∀ depth, ∀ l ∈ closingLines depth n, form .other l

/-- The lines around the nodes of a container have their forms. -/
structure FrameFormed : Prop where
  package : ∀ depth name, form .other (packageLine depth name)
  close : ∀ depth, form .other (pad depth ++ "\x7d")

variable {form}

mutual

theorem shows_node : ∀ (n : Node), (∀ m ∈ nodesOf n, NodeFormed form m) → ∀ depth : ℕ,
    Shows form (nodeMarks depth n) (nodeLines depth n) ((nodesOf n).map (·.id)) []
  | ⟨shape, id, label, stereotype, style, sections, notes, children⟩, h, depth => by
    rw [nodesOf] at h ⊢
    obtain ⟨hnode, hchildren⟩ := List.forall_mem_cons.1 h
    have hlines : nodeLines depth ⟨shape, id, label, stereotype, style, sections, notes, children⟩ =
        (nodeHeader (pad depth) shape label id stereotype ::
          innerLines depth ⟨shape, id, label, stereotype, style, sections, notes, children⟩) ++
          nodesLines (depth + 1) children ++
          closingLines depth ⟨shape, id, label, stereotype, style, sections, notes, children⟩ := by
      simp [nodeLines, innerLines, closingLines]
    have hall := ((Shows.declaration (hnode.header depth) (hnode.inner depth)).append
      (shows_nodes children hchildren (depth + 1))).append (.others (hnode.closing depth))
    rw [List.append_nil] at hall
    rwa [nodeMarks, hlines, List.map_cons]

theorem shows_nodes : ∀ ns : List Node, (∀ m ∈ nodesOfAll ns, NodeFormed form m) → ∀ depth : ℕ,
    Shows form (nodesMarks depth ns) (nodesLines depth ns) ((nodesOfAll ns).map (·.id)) []
  | [], _, _ => .nil
  | n :: ns, h, depth => by
    rw [nodesOfAll] at h ⊢
    obtain ⟨hn, hns⟩ := List.forall_mem_append.1 h
    rw [nodesMarks, nodesLines, List.map_append]
    exact (shows_node n hn depth).append (shows_nodes ns hns depth)

end

section Containers

variable (hframe : FrameFormed form)

include hframe

mutual

theorem shows_container : ∀ c : Container,
    (∀ m ∈ (Mermaid.containerNodes c).flatMap nodesOf, NodeFormed form m) → ∀ depth : ℕ,
    Shows form (containerMarks depth c) (containerLines depth c)
      (((Mermaid.containerNodes c).flatMap nodesOf).map (·.id)) []
  | ⟨name, nodes, containers⟩, h, depth => by
    rw [Mermaid.containerNodes, List.flatMap_append, ← nodesOfAll_eq] at h ⊢
    obtain ⟨hnodes, hcontainers⟩ := List.forall_mem_append.1 h
    have hall := (((Shows.others (List.forall_mem_singleton.2 (hframe.package depth name))).append
      (shows_nodes nodes hnodes depth)).append
        (shows_containers containers hcontainers (depth + 1))).append
          (.others (List.forall_mem_singleton.2 (hframe.close depth)))
    rw [List.nil_append, List.append_nil, ← List.map_append] at hall
    rwa [containerMarks, containerLines]

theorem shows_containers : ∀ cs : List Container,
    (∀ m ∈ (Mermaid.containersNodes cs).flatMap nodesOf, NodeFormed form m) → ∀ depth : ℕ,
    Shows form (containersMarks depth cs) (containersLines depth cs)
      (((Mermaid.containersNodes cs).flatMap nodesOf).map (·.id)) []
  | [], _, _ => .nil
  | c :: cs, h, depth => by
    rw [Mermaid.containersNodes, List.flatMap_append] at h ⊢
    obtain ⟨hc, hcs⟩ := List.forall_mem_append.1 h
    rw [containersMarks, containersLines, List.map_append]
    exact (shows_container c hc depth).append (shows_containers cs hcs depth)

end

/-- A PlantUML text declares the nodes of its diagram, those inside others too. -/
theorem shows_lines {d : Diagram}
    (hopening : ∀ l ∈ opening d ++ ["title " ++ d.title, ""], form .other l)
    (hnodes : ∀ n ∈ allNodes d, NodeFormed form n)
    (hedge : ∀ e ∈ d.edges, form (.joins e) (edgeLine e) ∧ ∀ l ∈ edgeNoteLines e, form .other l)
    (hend : form .other "@enduml") :
    Shows form (marks d) (lines d) ((allNodes d).map (·.id)) d.edges := by
  have hempty : form .other "" := hopening "" (by simp)
  rw [allNodes, Mermaid.nodes, List.flatMap_append, containersNodes_eq, List.flatMap_assoc,
    ← nodesOfAll_eq] at hnodes ⊢
  obtain ⟨hcontained, hown⟩ := List.forall_mem_append.1 hnodes
  have hcontainer : ∀ c ∈ d.containers,
      Shows form (containerMarks 0 c ++ Line.others [""]) (containerLines 0 c ++ [""])
        (((Mermaid.containerNodes c).flatMap nodesOf).map (·.id)) [] := fun c hc => by
    have hinside := fun m hm => hcontained m (List.mem_flatMap.2 ⟨c, hc, hm⟩)
    have hall := (shows_container hframe c hinside 0).append
      (.others (List.forall_mem_singleton.2 hempty))
    rwa [List.append_nil] at hall
  have hedges : ∀ e ∈ d.edges, Shows form (Line.headed (.joins e) (edgeLines e)) (edgeLines e) []
      [e] := fun e he => .edge (hedge e he).1 (hedge e he).2
  have hall := ((((Shows.others hopening).append (.nodes hcontainer)).append
    (shows_nodes d.nodes hown 0)).append (.edges hedges)).append
      (.others (List.forall_mem_singleton.2 hend))
  rw [lines_eq, body, marks, List.map_append, List.map_flatMap]
  simpa using hall

end Containers

end Shown

end PlantUml

/-! ## Every diagram -/

/-- How the lines of a flowchart look. -/
def Mermaid.FlowchartForm : Purpose → String → Prop
  | .declares id, l => ∃ label, l = "    " ++ id ++ nodeText label
  | .joins e, l => l = flowchartEdgeLine e
  | .other, _ => True

/-- How the lines of a class diagram look. -/
def Mermaid.ClassForm : Purpose → String → Prop
  | .declares id, l => l = "    class " ++ id ∨ l = "    class " ++ id ++ " \x7b"
  | .joins e, l => l = classEdgeLine e
  | .other, _ => True

/-- How the lines of a PlantUML text look. -/
def PlantUml.Form : Purpose → String → Prop
  | .declares id, l => ∃ depth shape label stereotype,
      l = nodeHeader (pad depth) shape label id stereotype
  | .joins e, l => l = edgeLine e
  | .other, _ => True

/-! ## Readers of single lines -/

/-- An identifier ends where a character follows that is in none. -/
theorem span_inIdentifier {id : String} (hid : IsIdentifier id) {r : List Char}
    (hr : ∀ c ∈ r.head?, Chars.inIdentifier c = false) :
    (id.toList ++ r).takeWhile Chars.inIdentifier = id.toList ∧
      (id.toList ++ r).dropWhile Chars.inIdentifier = r := by
  have hall := PlantUml.inIdentifier_of_isIdentifier hid
  rw [List.takeWhile_append_of_pos hall, List.dropWhile_append_of_pos hall]
  cases r with
  | nil => exact ⟨List.append_nil _, rfl⟩
  | cons c r =>
    have hc := hr c rfl
    rw [List.takeWhile_cons_of_neg (by simp [hc]), List.dropWhile_cons_of_neg (by simp [hc])]
    exact ⟨List.append_nil _, rfl⟩

namespace Mermaid

/-- The identifier that stands behind a text, when what follows it is as it should be. -/
def named? (before : String) (follows : List Char → Bool) (line : String) : Option String := do
  let rest ← Chars.dropPrefix? before.toList line.toList
  let id := rest.takeWhile Chars.inIdentifier
  if id ≠ [] ∧ follows (rest.dropWhile Chars.inIdentifier) then some (String.ofList id) else none

/-- The node that a line of a flowchart declares : one with a text in brackets. -/
def flowchartDeclared? : String → Option String :=
  named? "    " (·.head? = some '[')

/-- The node that a line of a class diagram declares : one behind the word `class`. -/
def classDeclared? : String → Option String :=
  named? "    class " fun r => r = [] || r = [' ', '\x7b']

section Named

variable {before : String} {follows : List Char → Bool} {line : String}

theorem named?_eq {id after : String} (hid : IsIdentifier id)
    (hafter : ∀ c ∈ after.toList.head?, Chars.inIdentifier c = false) :
    named? before follows (before ++ id ++ after) =
      if follows after.toList then some id else none := by
  obtain ⟨htake, hdrop⟩ := span_inIdentifier hid hafter
  rw [named?, String.toList_append, String.toList_append, List.append_assoc,
    Chars.dropPrefix?_append]
  simp only [Option.bind_eq_bind, Option.bind_some, htake, hdrop, String.ofList_toList, ne_eq,
    hid.toList_ne_nil, not_false_eq_true, true_and]

theorem named?_of_not_prefix (h : ¬before.toList <+: line.toList) :
    named? before follows line = none := by
  rw [named?, Chars.dropPrefix?_eq_none h]
  rfl

end Named

end Mermaid

namespace PlantUml

/-- The node that a line declares. Notes are declared too, but are no nodes. -/
def declaredNode? (line : String) : Option String :=
  if (line.toList.dropWhile (· = ' ')).takeWhile (· ≠ ' ') = "note".toList then none
  else declared? line

theorem declaredNode?_of_declared? {l : String} (h : declared? l = none) :
    declaredNode? l = none := by
  rw [declaredNode?, h, ite_self]

theorem declaredNode?_of_note {indent rest : String} (hindent : ∀ c ∈ indent.toList, c = ' ')
    (hrest : ∀ c ∈ rest.toList.head?, c = ' ') :
    declaredNode? (indent ++ "note" ++ rest) = none := by
  rw [declaredNode?, dropWhile_indent hindent (by decide) (by decide),
    takeWhile_word (by decide) hrest, if_pos rfl]

/-- Nothing depends on how far a line is indented. -/
theorem declaredNode?_indent {indent : String} (hindent : ∀ c ∈ indent.toList, c = ' ')
    (l : String) : declaredNode? (indent ++ l) = declaredNode? l := by
  have hdrop : (indent ++ l).toList.dropWhile (· = ' ') = l.toList.dropWhile (· = ' ') := by
    rw [String.toList_append, List.dropWhile_append_of_pos (by simpa using hindent)]
  rw [declaredNode?, declaredNode?, declared?, declared?, hdrop]

theorem Declares.forall_mem {ls : List String} (h : Declares ls []) :
    ∀ l ∈ ls, Legible declaredNode? .other l := fun l hl =>
  ⟨h.oneLine l hl, declaredNode?_of_declared? (List.filterMap_eq_nil_iff.1 h.aliases l hl)⟩

theorem legible_nodeHeader {id : String} (hid : IsIdentifier id) (depth : ℕ) (shape : Shape)
    (label : String) {stereotype : Option String} (hs : ∀ s ∈ stereotype, OneLine s) :
    Legible declaredNode? (.declares id) (nodeHeader (pad depth) shape label id stereotype) := by
  obtain ⟨hone, halias⟩ := declares_nodeHeader hid depth shape label hs
  have hword : shape.word.toList ≠ [] ∧ ' ' ∉ shape.word.toList ∧ shape.word ≠ "note" := by
    cases shape <;> decide
  have hread : declared? (nodeHeader (pad depth) shape label id stereotype) = some id := by
    cases h : declared? (nodeHeader (pad depth) shape label id stereotype) with
    | none => simp [h] at halias
    | some a => simpa [h] using halias
  have hline : ∃ rest : String, nodeHeader (pad depth) shape label id stereotype =
      pad depth ++ shape.word ++ (" " ++ rest) := by
    cases stereotype with
    | none => exact ⟨"\"" ++ Text.escape label ++ "\" as " ++ id ++ " \x7b", by
        rw [← String.toList_inj]; simp [nodeHeader]⟩
    | some s => exact ⟨"\"" ++ Text.escape label ++ "\" as " ++ id ++ " <<" ++ s ++ ">> \x7b", by
        rw [← String.toList_inj]; simp [nodeHeader]⟩
  refine ⟨hone _ List.mem_cons_self, ?_⟩
  obtain ⟨rest, hrest⟩ := hline
  rw [declaredNode?, hread, hrest, dropWhile_indent (forall_mem_pad depth) hword.1 hword.2.1,
    takeWhile_word hword.2.1 (by simp), if_neg (mt String.toList_inj.1 hword.2.2)]
  rfl

end PlantUml

/-! ## Diagrams in which nothing is written like a declaration -/

open PlantUml (declaredNode? allNodes declaring takeWhile_word)

/-- A node whose identifier is one and whose texts do not look like declarations. -/
structure ReadableNode (n : Node) : Prop where
  id : IsIdentifier n.id
  stereotype : ∀ s ∈ n.stereotype, OneLine s
  style : ∀ s ∈ n.style, OneLine s
  sections : ∀ s ∈ n.sections, ∀ l ∈ s.lines, declaredNode? (Text.singleLine l) = none
  notes : ∀ note ∈ n.notes, ∀ l ∈ note.lines, declaredNode? (Text.singleLine l) = none

/-- An edge that starts with an identifier that is no word of a declaration. -/
structure ReadableEdge (e : Edge) : Prop where
  source : IsIdentifier e.source
  notWord : e.source ∉ declaring
  arrow : OneLine e.arrow
  target : OneLine e.target
  sourceCount : ∀ m ∈ e.sourceCount, OneLine m
  targetCount : ∀ m ∈ e.targetCount, OneLine m
  note : ∀ t ∈ e.note, declaredNode? (Text.singleLine t) = none

/-- A diagram in which nothing but a declaration is written like one. -/
structure Readable (d : Diagram) : Prop where
  title : OneLine d.title
  preamble : ∀ l ∈ d.preamble, Legible declaredNode? .other l
  nodes : ∀ n ∈ allNodes d, ReadableNode n
  edges : ∀ e ∈ d.edges, ReadableEdge e

theorem Readable.of_mem_nodes {d : Diagram} (h : Readable d) {n : Node} (hn : n ∈ Mermaid.nodes d) :
    ReadableNode n :=
  h.nodes n (List.mem_flatMap.2 ⟨n, hn, by rw [PlantUml.nodesOf_eq]; exact List.mem_cons_self⟩)

namespace Mermaid

theorem legible_flowchartNode {n : Node} (h : ReadableNode n) :
    Legible flowchartDeclared? (.declares n.id) ("    " ++ n.id ++ nodeText n.label) := by
  have hbracket : (nodeText n.label).toList.head? = some '[' := by
    rw [nodeText]
    split_ifs <;> simp
  have hopen : ∀ c ∈ (nodeText n.label).toList.head?, Chars.inIdentifier c = false := by
    rw [hbracket]
    exact fun c hc => Option.some.inj hc ▸ (by decide)
  refine ⟨?_, ?_⟩
  · simp +decide [oneLine_of_isIdentifier h.id, Piece.oneLine_nodeText]
  · rw [flowchartDeclared?, named?_eq h.id hopen, hbracket]
    rfl

theorem legible_styleLines {n : Node} (h : ReadableNode n) :
    ∀ l ∈ styleLines n, Legible flowchartDeclared? .other l := by
  have hword : IsIdentifier "style" := ⟨'s', ['t', 'y', 'l', 'e'], by simp⟩
  refine List.forall_mem_map.2 fun s hs => ⟨?_, ?_⟩
  · simp +decide [oneLine_of_isIdentifier h.id, h.style s (Option.mem_toList.1 hs)]
  · have hline : "    style " ++ n.id ++ " " ++ s =
        "    " ++ "style" ++ (" " ++ n.id ++ " " ++ s) := by
      rw [← String.toList_inj]
      simp
    rw [flowchartDeclared?, hline, named?_eq hword (by simp +decide), if_neg (by simp)]
    rfl

theorem legible_flowchartEdge {e : Edge} (h : ReadableEdge e) :
    Legible flowchartDeclared? (.joins e) (flowchartEdgeLine e) := by
  have hone : OneLine (flowchartEdgeLine e) := by
    rw [flowchartEdgeLine]
    split <;> simp +decide [oneLine_of_isIdentifier h.source, h.arrow, h.target,
      Text.oneLine_singleLine]
  have hline : ∃ rest, flowchartEdgeLine e = "    " ++ e.source ++ (" " ++ rest) := by
    rw [flowchartEdgeLine]
    split <;> exact ⟨_, by simp only [String.append_assoc]; rfl⟩
  obtain ⟨rest, hrest⟩ := hline
  refine ⟨hone, ?_⟩
  rw [flowchartDeclared?, hrest, named?_eq h.source (by simp +decide), if_neg (by simp)]
  rfl

theorem legible_class {n : Node} (h : ReadableNode n) :
    Legible classDeclared? (.declares n.id) ("    class " ++ n.id) ∧
      Legible classDeclared? (.declares n.id) ("    class " ++ n.id ++ " \x7b") := by
  have hone := oneLine_of_isIdentifier h.id
  have hread : ∀ after : String, after.toList = [] ∨ after.toList = [' ', '\x7b'] →
      classDeclared? ("    class " ++ n.id ++ after) = some n.id := fun after hafter => by
    rw [classDeclared?, named?_eq h.id (by rcases hafter with ha | ha <;> simp +decide [ha]),
      if_pos (by simpa using hafter)]
  have hbare := hread "" (Or.inl rfl)
  rw [String.append_empty] at hbare
  exact ⟨⟨by simp +decide [hone], hbare⟩, ⟨by simp +decide [hone], hread _ (Or.inr rfl)⟩⟩

theorem legible_memberLines {n : Node} (h : ReadableNode n) :
    ∀ l ∈ memberLines n, Legible classDeclared? .other l := by
  have hindent : ∀ s : String, OneLine s → Legible classDeclared? .other ("        " ++ s) :=
    fun s hs => ⟨by simp +decide [hs], named?_of_not_prefix (by simp)⟩
  rw [memberLines, List.forall_mem_append, List.forall_mem_append]
  refine ⟨⟨List.forall_mem_map.2 fun s hs => ?_, List.forall_mem_map.2 fun s _ =>
    hindent _ (Text.oneLine_singleLine s)⟩, List.forall_mem_singleton.2 ⟨by decide, by decide⟩⟩
  have hline : "        <<" ++ s ++ ">>" = "        " ++ ("<<" ++ s ++ ">>") := by
    rw [← String.toList_inj]
    simp
  rw [hline]
  exact hindent _ (by simp +decide [h.stereotype s (Option.mem_toList.1 hs)])

theorem legible_classEdge {e : Edge} (h : ReadableEdge e) :
    Legible classDeclared? (.joins e) (classEdgeLine e) := by
  have hone : OneLine (classEdgeLine e) := by
    rw [classEdgeLine]
    split <;> simp +decide [oneLine_of_isIdentifier h.source, h.arrow, h.target,
      Text.oneLine_singleLine]
  have hline : ∃ rest, classEdgeLine e = "    " ++ (e.source ++ (" " ++ rest)) := by
    rw [classEdgeLine]
    split <;> exact ⟨_, by simp only [String.append_assoc]; rfl⟩
  obtain ⟨rest, hrest⟩ := hline
  refine ⟨hone, named?_of_not_prefix fun hprefix => h.notWord ?_⟩
  -- the first word behind the indentation is the source, so it would be `class`
  obtain ⟨t, ht⟩ := hprefix
  rw [hrest] at ht
  have hwords : ("class".toList ++ (" " ++ String.ofList t).toList).takeWhile (· ≠ ' ') =
      (e.source.toList ++ (" " ++ rest).toList).takeWhile (· ≠ ' ') := by
    have htail := congrArg (fun l => (l.drop 4).takeWhile (· ≠ ' ')) ht
    simpa using htail
  rw [takeWhile_word (by decide) (by simp), takeWhile_word h.source.space_notMem (by simp),
    String.toList_inj] at hwords
  rw [← hwords]
  decide

end Mermaid

namespace PlantUml

theorem legible_pad (depth : ℕ) {t : String} (ht : OneLine t) (h : declaredNode? t = none) :
    Legible declaredNode? .other (pad depth ++ t) :=
  ⟨by simp [oneLine_pad, ht], by rw [declaredNode?_indent (forall_mem_pad depth), h]; rfl⟩

theorem legible_sectionLines {n : Node} (h : ReadableNode n) (depth : ℕ) :
    ∀ l ∈ n.sections.flatMap (sectionLines (pad depth)), Legible declaredNode? .other l := by
  refine List.forall_mem_flatMap.2 fun s hs => ?_
  rw [sectionLines, List.forall_mem_append, List.forall_mem_append]
  refine ⟨⟨?_, ?_⟩, List.forall_mem_map.2 fun t ht => ?_⟩
  · split
    · exact List.forall_mem_singleton.2 (legible_pad depth (by decide) (by decide))
    · exact List.forall_mem_nil _
  · split
    · next title _ =>
      have hsilent : declared? ("  " ++ ".." ++ (" " ++ Text.singleLine title ++ " ..")) = none :=
        declared?_of_word (by simp) (by decide) (by simp)
      have hline : pad depth ++ "  .. " ++ Text.singleLine title ++ " .." =
          pad depth ++ ("  " ++ ".." ++ (" " ++ Text.singleLine title ++ " ..")) := by
        rw [← String.toList_inj]
        simp
      rw [List.forall_mem_singleton, hline]
      exact legible_pad depth (by simp +decide [Text.oneLine_singleLine])
        (declaredNode?_of_declared? hsilent)
    · exact List.forall_mem_nil _
  · rw [String.append_assoc]
    refine legible_pad depth (by simp +decide [Text.oneLine_singleLine]) ?_
    rw [declaredNode?_indent (by simp), h.sections s hs t ht]

theorem legible_inlineNotes {n : Node} (h : ReadableNode n) (depth : ℕ) :
    ∀ l ∈ (n.notes.filter (!·.detached)).zipIdx.map fun q =>
      inlineNoteLine (pad depth) n.id q.1 q.2, Legible declaredNode? .other l := by
  refine List.forall_mem_map.2 fun q _ => ⟨(declares_inlineNoteLine h.id depth q.1 q.2).oneLine _
    List.mem_cons_self, ?_⟩
  have hindent : ∀ c ∈ (pad depth ++ "  ").toList, c = ' ' := by
    rw [String.toList_append]
    exact List.forall_mem_append.2 ⟨forall_mem_pad depth, by simp⟩
  have hline : ∃ rest, inlineNoteLine (pad depth) n.id q.1 q.2 =
      pad depth ++ "  " ++ "note" ++ (" " ++ rest) :=
    ⟨"\"" ++ String.intercalate "\\n" (q.1.lines.map Text.escape) ++ "\" as N_" ++ n.id ++ "_" ++
      toString (q.2 + 1), by rw [← String.toList_inj]; simp [inlineNoteLine]⟩
  obtain ⟨rest, hrest⟩ := hline
  rw [hrest, declaredNode?_of_note hindent (by simp)]
  rfl

theorem legible_detachedNotes {n : Node} (h : ReadableNode n) (depth : ℕ) :
    ∀ l ∈ (n.notes.filter (·.detached)).flatMap (detachedNoteLines (pad depth) n.id),
      Legible declaredNode? .other l := by
  refine List.forall_mem_flatMap.2 fun note hnote => ?_
  rw [detachedNoteLines, List.forall_mem_append, List.forall_mem_append]
  refine ⟨⟨List.forall_mem_singleton.2 ?_, List.forall_mem_map.2 fun t ht => ?_⟩,
    List.forall_mem_singleton.2 (legible_pad depth (by decide) (by decide))⟩
  · have hsilent : declaredNode? ("" ++ "note" ++ (" bottom of " ++ n.id)) = none :=
      declaredNode?_of_note (by simp) (by simp)
    have hline : pad depth ++ "note bottom of " ++ n.id =
        pad depth ++ ("" ++ "note" ++ (" bottom of " ++ n.id)) := by
      rw [← String.toList_inj]
      simp
    rw [hline]
    exact legible_pad depth (by simp +decide [oneLine_of_isIdentifier h.id]) hsilent
  · exact legible_pad depth (Text.oneLine_singleLine t)
      (h.notes note (List.mem_of_mem_filter hnote) t ht)

theorem nodeFormed_legible {n : Node} (h : ReadableNode n) :
    NodeFormed (Legible declaredNode?) n where
  header depth := legible_nodeHeader h.id depth n.shape n.label h.stereotype
  inner depth := List.forall_mem_append.2
    ⟨legible_sectionLines h depth, legible_inlineNotes h depth⟩
  closing depth := List.forall_mem_cons.2
    ⟨legible_pad depth (by decide) (by decide), legible_detachedNotes h depth⟩

theorem frameFormed_legible : FrameFormed (Legible declaredNode?) where
  package depth name := (declares_packageHeader depth name).forall_mem _ List.mem_cons_self
  close depth := legible_pad depth (by decide) (by decide)

theorem legible_edgeLine {e : Edge} (h : ReadableEdge e) :
    Legible declaredNode? (.joins e) (edgeLine e) := by
  have hone : OneLine (edgeLine e) := by
    rw [edgeLine]
    split <;> simp +decide [oneLine_of_isIdentifier h.source, h.arrow, h.target,
      oneLine_countText h.sourceCount, oneLine_countText h.targetCount, Text.oneLine_singleLine]
  have hline : ∃ t, edgeLine e = "" ++ e.source ++ (countText e.sourceCount ++ (" " ++ t)) :=
    ⟨_, by rw [edgeLine]; simp only [String.empty_append, String.append_assoc]; rfl⟩
  have hblank : ∀ t, ∀ c ∈ (countText e.sourceCount ++ (" " ++ t)).toList.head?, c = ' ' :=
    fun t => by cases e.sourceCount <;> simp [countText]
  obtain ⟨t, ht⟩ := hline
  refine ⟨hone, declaredNode?_of_declared? ?_⟩
  rw [ht]
  exact declared?_of_word (by simp) ⟨h.source.toList_ne_nil, h.source.space_notMem, h.notWord⟩
    (hblank t)

theorem legible_edgeNoteLines {e : Edge} (h : ReadableEdge e) :
    ∀ l ∈ edgeNoteLines e, Legible declaredNode? .other l := by
  rw [edgeNoteLines]
  split
  · next note hnote =>
    have htext : Legible declaredNode? .other ("  " ++ Text.singleLine note) :=
      ⟨by simp +decide [Text.oneLine_singleLine],
        by rw [declaredNode?_indent (by simp), h.note note hnote]; rfl⟩
    simp only [List.forall_mem_cons]
    exact ⟨⟨by decide, by decide⟩, htext, ⟨by decide, by decide⟩, List.forall_mem_nil _⟩
  · exact List.forall_mem_nil _

theorem legible_opening {d : Diagram} (h : Readable d) :
    ∀ l ∈ opening d ++ ["title " ++ d.title, ""], Legible declaredNode? .other l := by
  have hempty : Legible declaredNode? .other "" := ⟨by decide, by decide⟩
  have hsilent : declared? ("" ++ "title" ++ (" " ++ d.title)) = none :=
    declared?_of_word (by simp) (by decide) (by simp)
  have hline : "title " ++ d.title = "" ++ "title" ++ (" " ++ d.title) := by
    rw [← String.toList_inj]
    simp
  have htitle : Legible declaredNode? .other ("title " ++ d.title) := by
    rw [hline]
    exact ⟨by simp +decide [h.title], declaredNode?_of_declared? hsilent⟩
  have hstart : Legible declaredNode? .other "@startuml" := ⟨by decide, by decide⟩
  rw [opening]
  split_ifs
  · simp [hstart, hempty, htitle]
  · simpa [hstart, hempty, htitle, or_imp, forall_and] using h.preamble

end PlantUml

/-! ## The nodes that are shown -/

/-- The nodes inside a node, at any depth. -/
def nodesInside (n : Node) : List Node :=
  n.children.flatMap PlantUml.nodesOf

theorem nodesInside_eq_nil {n : Node} : nodesInside n = [] ↔ n.children = [] := by
  rw [nodesInside, List.flatMap_eq_nil_iff]
  constructor
  · refine fun h => List.eq_nil_iff_forall_not_mem.2 fun c hc => ?_
    have hnone := h c hc
    rw [PlantUml.nodesOf_eq] at hnone
    exact List.cons_ne_nil _ _ hnone
  · intro h
    rw [h]
    exact List.forall_mem_nil _

theorem perm_allNodes (d : Diagram) :
    (Mermaid.nodes d ++ (Mermaid.nodes d).flatMap nodesInside).Perm (allNodes d) := by
  have hnodes : allNodes d = (Mermaid.nodes d).flatMap fun n => [n] ++ nodesInside n :=
    List.flatMap_congr fun n _ => PlantUml.nodesOf_eq n
  have hperm := List.flatMap_append_perm (Mermaid.nodes d) (fun n => [n]) nodesInside
  rwa [List.flatMap_singleton', ← hnodes] at hperm

/-- As many nodes are declared in a PlantUML text just if none is inside another. -/
theorem perm_ids_iff (d : Diagram) :
    ((allNodes d).map (·.id)).Perm ((Mermaid.nodes d).map (·.id)) ↔
      ∀ n ∈ Mermaid.nodes d, n.children = [] := by
  have hperm := perm_allNodes d
  -- the numbers of nodes decide : what is inside others would have to be nothing
  constructor
  · intro h
    have hlength := h.length_eq
    rw [List.length_map, List.length_map, ← hperm.length_eq, List.length_append,
      Nat.add_eq_left, List.length_eq_zero_iff, List.flatMap_eq_nil_iff] at hlength
    exact fun n hn => nodesInside_eq_nil.1 (hlength n hn)
  · intro h
    have hnone : (Mermaid.nodes d).flatMap nodesInside = [] :=
      List.flatMap_eq_nil_iff.2 fun n hn => nodesInside_eq_nil.2 (h n hn)
    rw [hnone, List.append_nil] at hperm
    exact (hperm.map (·.id)).symm

/-- What a reader of single lines finds in the texts of a readable diagram. -/
structure ReadsNodes (d : Diagram) (direction : String) : Prop where
  flowchart : (Text.lines (Mermaid.flowchart d direction)).filterMap Mermaid.flowchartDeclared? =
    (Mermaid.nodes d).map (·.id)
  classDiagram : (Text.lines (Mermaid.classDiagram d)).filterMap Mermaid.classDeclared? =
    (Mermaid.nodes d).map (·.id)
  plantUml : (Text.lines (PlantUml.render d)).filterMap declaredNode? = (allNodes d).map (·.id)

theorem Readable.readsNodes {d : Diagram} (h : Readable d) {direction : String}
    (hdirection : OneLine direction) : ReadsNodes d direction where
  flowchart := by
    have hstart : Legible Mermaid.flowchartDeclared? .other ("graph " ++ direction) :=
      ⟨by simp +decide [hdirection], Mermaid.named?_of_not_prefix (by simp)⟩
    exact (Mermaid.shows_flowchart hstart (fun n hn =>
      ⟨Mermaid.legible_flowchartNode (h.of_mem_nodes hn),
        Mermaid.legible_styleLines (h.of_mem_nodes hn)⟩) fun e he =>
      Mermaid.legible_flowchartEdge (h.edges e he)).filterMap_read
  classDiagram := by
    have hstart : Legible Mermaid.classDeclared? .other "classDiagram" := ⟨by decide, by decide⟩
    refine (Mermaid.shows_classDiagram hstart (fun n hn => ?_) fun e he =>
      Mermaid.legible_classEdge (h.edges e he)).filterMap_read
    obtain ⟨hbare, hopen⟩ := Mermaid.legible_class (h.of_mem_nodes hn)
    exact ⟨hbare, hopen, Mermaid.legible_memberLines (h.of_mem_nodes hn)⟩
  plantUml :=
    (PlantUml.shows_lines PlantUml.frameFormed_legible (PlantUml.legible_opening h)
      (fun n hn => PlantUml.nodeFormed_legible (h.nodes n hn)) (fun e he =>
        ⟨PlantUml.legible_edgeLine (h.edges e he), PlantUml.legible_edgeNoteLines (h.edges e he)⟩)
      ⟨by decide, by decide⟩).filterMap_read

/-- Flowchart and class diagram declare the nodes of the diagram and of its containers at any depth,
and a PlantUML text those and all nodes inside them. So the three declare the same nodes, each as
many times, just if no node has nodes inside it; in either case all three draw the edges of the
diagram in turn. In a readable diagram this is what a reader of single lines finds. -/
theorem shown_nodes (d : Diagram) (direction : String) :
    Shows Mermaid.FlowchartForm (Mermaid.flowchartMarks direction d)
      (Mermaid.flowchartLines d direction) ((Mermaid.nodes d).map (·.id)) d.edges ∧
    Shows Mermaid.ClassForm (Mermaid.classMarks d) (Mermaid.classDiagramLines d)
      ((Mermaid.nodes d).map (·.id)) d.edges ∧
    Shows PlantUml.Form (PlantUml.marks d) (PlantUml.lines d) ((allNodes d).map (·.id)) d.edges ∧
    (Mermaid.nodes d ++ (Mermaid.nodes d).flatMap nodesInside).Perm (allNodes d) ∧
    (((allNodes d).map (·.id)).Perm ((Mermaid.nodes d).map (·.id)) ↔
      ∀ n ∈ Mermaid.nodes d, n.children = []) ∧
    (Readable d → OneLine direction → ReadsNodes d direction) := by
  refine ⟨?_, ?_, ?_, perm_allNodes d, perm_ids_iff d, fun h hdirection => h.readsNodes hdirection⟩
  · exact Mermaid.shows_flowchart trivial (fun n _ => ⟨⟨n.label, rfl⟩, fun _ _ => trivial⟩)
      fun e _ => rfl
  · exact Mermaid.shows_classDiagram trivial
      (fun n _ => ⟨Or.inl rfl, Or.inr rfl, fun _ _ => trivial⟩) fun e _ => rfl
  · exact PlantUml.shows_lines ⟨fun _ _ => trivial, fun _ => trivial⟩ (fun _ _ => trivial)
      (fun n _ => ⟨fun depth => ⟨depth, n.shape, n.label, n.stereotype, rfl⟩, fun _ _ _ => trivial,
        fun _ _ _ => trivial⟩) (fun e _ => ⟨rfl, fun _ _ => trivial⟩) trivial

/-- A build file with one stage. -/
def stagedDiagram : Diagram where
  title := "t"
  nodes := [{
    shape := .component, id := "df", label := "Dockerfile"
    children := [{ shape := .component, id := "df_0", label := "builder" }] }]

theorem readable_stagedDiagram : Readable stagedDiagram := by
  have hnode : ∀ (id label : String) (children : List Node), IsIdentifier id →
      ReadableNode { shape := .component, id, label, children } := fun _ _ _ hid =>
    ⟨hid, nofun, nofun, List.forall_mem_nil _, List.forall_mem_nil _⟩
  have hfile : IsIdentifier "df" := ⟨'d', ['f'], by simp⟩
  have hstage : IsIdentifier "df_0" := ⟨'d', ['f', '_', '0'], by simp⟩
  refine ⟨by decide, List.forall_mem_nil _, ?_, List.forall_mem_nil _⟩
  exact List.forall_mem_cons.2 ⟨hnode _ _ _ hfile, List.forall_mem_singleton.2 (hnode _ _ _ hstage)⟩

/-- The stage is declared in the PlantUML text alone. -/
theorem inner_node_not_shown :
    ¬∀ (d : Diagram) (direction : String), Readable d →
      ((Text.lines (Mermaid.flowchart d direction)).filterMap Mermaid.flowchartDeclared?).Perm
        ((Text.lines (PlantUml.render d)).filterMap declaredNode?) := by
  intro h
  have hperm := h stagedDiagram "TD" readable_stagedDiagram
  revert hperm
  decide +kernel

end Atlas
