/-!
# Diagrams

A diagram independent of any notation: a title, nodes that hold sections of text, notes and
further nodes, containers of nodes, and edges between node identifiers.
-/

namespace Atlas

/-- What a node is drawn as. -/
inductive Shape where
  | component
  | classBox
  | entity
  | database
  deriving DecidableEq, Repr, Inhabited

/-- The word for a shape. -/
def Shape.word : Shape → String
  | .component => "component"
  | .classBox => "class"
  | .entity => "entity"
  | .database => "database"

/-- A group of lines inside a node. -/
structure Section where
  title : Option String := none
  /-- Whether a separator stands before the section. -/
  divider : Bool := false
  lines : List String
  deriving DecidableEq, Repr

/-- A free-text note of a node. -/
structure Note where
  lines : List String
  /-- Whether it hangs below the node, not inside it. -/
  detached : Bool := false
  deriving DecidableEq, Repr

/-- A node, with the nodes inside it. -/
structure Node where
  shape : Shape
  id : String
  label : String
  stereotype : Option String := none
  /-- Colours, in the words of the notation that knows them. -/
  style : Option String := none
  sections : List Section := []
  notes : List Note := []
  children : List Node := []
  deriving Repr, Inhabited

/-- The node with one more section, unless that has no lines. -/
def Node.addSection (n : Node) (s : Section) : Node :=
  if s.lines.isEmpty then n else { n with sections := n.sections ++ [s] }

/-- The node with one more note, unless that has no lines. -/
def Node.addNote (n : Node) (note : Note) : Node :=
  if note.lines.isEmpty then n else { n with notes := n.notes ++ [note] }

/-- The node with one more node inside it. -/
def Node.addChild (n child : Node) : Node := { n with children := n.children ++ [child] }

/-- A named group of nodes and of further groups. -/
structure Container where
  name : String
  nodes : List Node := []
  containers : List Container := []
  deriving Repr, Inhabited

mutual

/-- Whether no node is in the container or below it. -/
def Container.isEmpty : Container → Bool
  | ⟨_, nodes, containers⟩ => nodes.isEmpty && allEmpty containers

/-- Whether no node is in any of the containers. -/
def Container.allEmpty : List Container → Bool
  | [] => true
  | c :: cs => c.isEmpty && allEmpty cs

end

/-- A directed edge between two node identifiers. -/
structure Edge where
  source : String
  arrow : String
  target : String
  sourceCount : Option String := none
  targetCount : Option String := none
  label : Option String := none
  /-- A note on the edge itself. -/
  note : Option String := none
  deriving DecidableEq, Repr

/-- A diagram. -/
structure Diagram where
  title : String
  /-- Directives written before the title. -/
  preamble : List String := []
  containers : List Container := []
  nodes : List Node := []
  edges : List Edge := []
  deriving Repr

/-- The diagram with one more container, unless that is empty. -/
def Diagram.addContainer (d : Diagram) (c : Container) : Diagram :=
  if c.isEmpty then d else { d with containers := d.containers ++ [c] }

/-- The directives of the project diagrams, for the element they are made of. -/
def Diagram.standardPreamble (element : String) : List String :=
  ["!theme plain", "skinparam linetype ortho", "skinparam roundcorner 5",
    "skinparam shadowing false", "skinparam " ++ element ++ " \x7b", "  BackgroundColor White",
    "  ArrowColor Gray", "  BorderColor Gray", "\x7d"]

end Atlas
