import Atlas.Diagram.Basic
import Atlas.Text

/-!
# PlantUML

The text of a diagram in PlantUML notation, as a list of lines. Names and labels are quoted and
escaped, section and note lines are kept on one line each.
-/

namespace Atlas.PlantUml

/-- The indentation of a depth. -/
def pad (depth : Nat) : String := Text.repeated depth "  "

/-- The lines of one section, inside a node. -/
def sectionLines (indent : String) (s : Section) : List String :=
  (if s.divider then [indent ++ "  --"] else []) ++
    (match s.title with
      | some title => [indent ++ "  .. " ++ Text.singleLine title ++ " .."]
      | none => []) ++
    s.lines.map (indent ++ "  " ++ Text.singleLine ·)

/-- The line of the note with index `i`, inside the node `id`. -/
def inlineNoteLine (indent id : String) (note : Note) (i : Nat) : String :=
  indent ++ "  note \"" ++ String.intercalate "\\n" (note.lines.map Text.escape) ++ "\" as N_" ++
    id ++ "_" ++ toString (i + 1)

/-- The lines of a note below the node `id`. -/
def detachedNoteLines (indent id : String) (note : Note) : List String :=
  [indent ++ "note bottom of " ++ id] ++ note.lines.map (indent ++ Text.singleLine ·) ++
    [indent ++ "end note"]

/-- The line that opens a node. -/
def nodeHeader (indent : String) (shape : Shape) (label id : String)
    (stereotype : Option String) : String :=
  indent ++ shape.word ++ " \"" ++ Text.escape label ++ "\" as " ++ id ++
    (match stereotype with
      | some s => " <<" ++ s ++ ">>"
      | none => "") ++ " \x7b"

mutual

/-- The lines of a node. -/
def nodeLines (depth : Nat) : Node → List String
  | ⟨shape, id, label, stereotype, _, sections, notes, children⟩ =>
    let indent := pad depth
    [nodeHeader indent shape label id stereotype] ++
      sections.flatMap (sectionLines indent) ++
      ((notes.filter (!·.detached)).zipIdx.map fun (n, i) => inlineNoteLine indent id n i) ++
      nodesLines (depth + 1) children ++ [indent ++ "\x7d"] ++
      (notes.filter (·.detached)).flatMap (detachedNoteLines indent id)

/-- The lines of several nodes. -/
def nodesLines (depth : Nat) : List Node → List String
  | [] => []
  | n :: ns => nodeLines depth n ++ nodesLines depth ns

end

mutual

/-- The lines of a container. Its nodes are indented as the container itself is. -/
def containerLines (depth : Nat) : Container → List String
  | ⟨name, nodes, containers⟩ =>
    [pad depth ++ "package \"" ++ Text.escape name ++ "\" \x7b"] ++ nodesLines depth nodes ++
      containersLines (depth + 1) containers ++ [pad depth ++ "\x7d"]

/-- The lines of several containers. -/
def containersLines (depth : Nat) : List Container → List String
  | [] => []
  | c :: cs => containerLines depth c ++ containersLines depth cs

end

/-- A text after an edge end, when there is one. -/
def countText : Option String → String
  | some m => " \"" ++ m ++ "\""
  | none => ""

/-- The lines of an edge. -/
def edgeLines (e : Edge) : List String :=
  [e.source ++ countText e.sourceCount ++ " " ++ e.arrow ++ countText e.targetCount ++ " " ++
      e.target ++
      (match e.label with
        | some l => " : " ++ Text.singleLine l
        | none => "")] ++
    (match e.note with
      | some note => ["note on link", "  " ++ Text.singleLine note, "end note"]
      | none => [])

/-- The lines of a diagram. -/
def lines (d : Diagram) : List String :=
  ["@startuml", ""] ++ (if d.preamble.isEmpty then [] else d.preamble ++ [""]) ++
    ["title " ++ d.title, ""] ++ d.containers.flatMap (containerLines 0 · ++ [""]) ++
    nodesLines 0 d.nodes ++ d.edges.flatMap edgeLines ++ ["@enduml"]

/-- The text of a diagram. -/
def render (d : Diagram) : String := Text.unlines (lines d)

end Atlas.PlantUml
