import Atlas.Diagram.Basic
import Atlas.Text

/-!
# Mermaid

The text of a diagram as a Mermaid flowchart and as a Mermaid class diagram. Both know neither
containers nor notes: they show the nodes of all containers and then those of the diagram itself.
-/

namespace Atlas.Mermaid

mutual

/-- The nodes of a container, then those of the containers in it. -/
def containerNodes : Container → List Node
  | ⟨_, nodes, containers⟩ => nodes ++ containersNodes containers

/-- The nodes of several containers. -/
def containersNodes : List Container → List Node
  | [] => []
  | c :: cs => containerNodes c ++ containersNodes cs

end

/-- The nodes shown. -/
def nodes (d : Diagram) : List Node := containersNodes d.containers ++ d.nodes

/-- The text of a node, in quotes only where it would read as brackets otherwise. -/
def nodeText (label : String) : String :=
  let label := Text.singleLine label
  if label.toList.any (['[', ']', '(', ')', '\x7b', '\x7d', '"', '|'].contains ·) then
    "[\"" ++ Text.replace "\"" "#quot;" label ++ "\"]"
  else "[" ++ label ++ "]"

/-- The lines of a flowchart node. -/
def flowchartNodeLines (n : Node) : List String :=
  ["    " ++ n.id ++ nodeText n.label] ++
    match n.style with
    | some style => ["    style " ++ n.id ++ " " ++ style]
    | none => []

/-- The line of a flowchart edge. -/
def flowchartEdgeLine (e : Edge) : String :=
  match e.label with
  | some l => "    " ++ e.source ++ " " ++ e.arrow ++ "|" ++ Text.singleLine l ++ "| " ++ e.target
  | none => "    " ++ e.source ++ " " ++ e.arrow ++ " " ++ e.target

/-- The lines of a flowchart. -/
def flowchartLines (d : Diagram) (direction : String) : List String :=
  ["graph " ++ direction] ++ (nodes d).flatMap flowchartNodeLines ++
    d.edges.map flowchartEdgeLine

/-- The diagram as a flowchart. -/
def flowchart (d : Diagram) (direction : String) : String :=
  Text.unlines (flowchartLines d direction)

/-- The lines of a class: its section lines are its members, and without any it has no body. -/
def classLines (n : Node) : List String :=
  let members := n.sections.flatMap (·.lines)
  if members.isEmpty then ["    class " ++ n.id]
  else
    ["    class " ++ n.id ++ " \x7b"] ++
      (match n.stereotype with
        | some s => ["        <<" ++ s ++ ">>"]
        | none => []) ++
      members.map ("        " ++ Text.singleLine ·) ++ ["    \x7d"]

/-- The line of an edge between classes. -/
def classEdgeLine (e : Edge) : String :=
  "    " ++ e.source ++ " " ++ e.arrow ++ " " ++ e.target ++
    match e.label with
    | some l => " : " ++ Text.singleLine l
    | none => ""

/-- The lines of a class diagram. -/
def classDiagramLines (d : Diagram) : List String :=
  ["classDiagram"] ++ (nodes d).flatMap classLines ++ d.edges.map classEdgeLine

/-- The diagram as a class diagram. -/
def classDiagram (d : Diagram) : String := Text.unlines (classDiagramLines d)

end Atlas.Mermaid
