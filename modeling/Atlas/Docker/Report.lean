import Atlas.Docker.Project
import Atlas.Text
import Atlas.Identifiers
import Atlas.Diagram.PlantUml

/-!
# Docker reports

The component diagram of a project and its Markdown summary.
-/

namespace Atlas.Docker

/-! ## Nodes -/

/-- A note with a title, or none without lines. -/
def titledNote (title : String) (lines : List String) : Note :=
  { lines := if lines.isEmpty then [] else title :: lines }

/-- The node of a stage. -/
def Stage.node (s : Stage) (id : String) : Node :=
  let n : Node := { shape := .component, id, label := s.label }
  (n.addNote { lines := ["FROM " ++ s.base] }).addNote
    (titledNote "Steps" (s.steps.map fun t => t.instruction ++ " " ++ t.arguments))

/-- The nodes of stages within the node `id`. -/
def stageNodes (id : String) (ids : Identifiers) : List Stage → List Node × Identifiers
  | [] => ([], ids)
  | s :: ss =>
    let (stageId, ids) := ids.fresh (id ++ "_stage_" ++ toString s.index)
    let (nodes, ids) := stageNodes id ids ss
    (s.node stageId :: nodes, ids)

/-- The node of a Dockerfile, with its stages inside. -/
def Dockerfile.node (f : Dockerfile) (ids : Identifiers) : Node × Identifiers :=
  let (id, ids) := ids.idFor ("dockerfile:" ++ f.path) (Text.identifier f.path)
  let n : Node := { shape := .component, id, label := f.path }
  let n := n.addNote { lines := ["FROM " ++ f.baseImage] }
  let (children, ids) := stageNodes id ids f.stages
  let n := children.foldl Node.addChild n
  let n := n.addNote (titledNote "Environment" (f.environment.map (·.label)))
  let n := n.addNote (titledNote "Exposed Ports" f.exposedPorts)
  let n := n.addNote (titledNote "Volumes" f.volumes)
  (n.addNote (titledNote "Commands" (f.commands.map fun c => c.kind ++ " " ++ c.command)), ids)

/-- The nodes of Dockerfiles. -/
def dockerfileNodes (ids : Identifiers) : List Dockerfile → List Node × Identifiers
  | [] => ([], ids)
  | f :: fs =>
    let (n, ids) := f.node ids
    let (ns, ids) := dockerfileNodes ids fs
    (n :: ns, ids)

/-- The lines that tell where the image of a service comes from. -/
def Service.imageLines (s : Service) : List String :=
  match s.image, s.build with
  | some image, _ => ["Image: " ++ image]
  | none, some b =>
    ["Build:", "Context: " ++ b.context, "Dockerfile: " ++ b.dockerfile.getD "Dockerfile"]
  | none, none => []

/-- The node of a service. -/
def Service.node (s : Service) (id : String) : Node :=
  let n : Node := { shape := .component, id, label := s.name }
  let n := n.addNote { lines := s.imageLines }
  let n := n.addNote (titledNote "Ports:" (s.ports.map (·.label)))
  n.addNote (titledNote "Environment:" (s.environment.map (·.label)))

/-- The note of a driver. -/
def driverNote (d : Option String) : Note := { lines := (d.map ("Driver: " ++ ·)).toList }

/-- The node of a network. -/
def networkNode (n : Shared) (id : String) : Node :=
  let node : Node := { shape := .component, id, label := n.name, stereotype := some "network" }
  node.addNote (driverNote n.driver)

/-- The node of a volume. -/
def volumeNode (v : Shared) (id : String) : Node :=
  let node : Node := { shape := .database, id, label := v.name }
  node.addNote (driverNote v.driver)

/-- The nodes of things of one kind, each with the identifier of its name. -/
def namedNodes {α : Type} (kind : String) (name : α → String) (node : α → String → Node)
    (ids : Identifiers) : List α → List Node × Identifiers
  | [] => ([], ids)
  | a :: as =>
    let (id, ids) := ids.idFor (kind ++ ":" ++ name a) (Text.identifier (name a))
    let (ns, ids) := namedNodes kind name node ids as
    (node a id :: ns, ids)

/-! ## Edges -/

/-- The edges of a service to what is drawn. -/
def Service.edges (ids : Identifiers) (s : Service) : List Edge :=
  match ids.lookup? ("service:" ++ s.name) with
  | none => []
  | some source =>
    let edges (kind arrow : String) (label : Option String) (names : List String) : List Edge :=
      names.filterMap fun n =>
        (ids.lookup? (kind ++ ":" ++ n)).map fun target => { source, arrow, target, label }
    edges "service" "..>" (some "depends on") s.dependsOn ++
      edges "network" "--" none s.networks ++
      edges "volume" "--" none ((s.volumes.filter (!·.isBind)).map (·.source))

/-! ## Diagram and summary -/

/-- The container of a compose file, and the edges between its services. -/
def Compose.parts (c : Compose) (ids : Identifiers) : Container × List Edge :=
  let (services, ids) := namedNodes "service" Service.name Service.node ids c.services
  let (networks, ids) := namedNodes "network" Shared.name networkNode ids c.networks
  let (volumes, ids) := namedNodes "volume" Shared.name volumeNode ids c.volumes
  let title :=
    if c.version = "" then "Docker Compose" else "Docker Compose (v" ++ c.version ++ ")"
  let inner : List Container := [⟨"Networks", networks, []⟩, ⟨"Volumes", volumes, []⟩]
  (⟨title, services, inner.filter (! ·.isEmpty)⟩, c.services.flatMap (·.edges ids))

/-- The directives of the diagram. -/
def preamble : List String :=
  ["!theme plain", "skinparam linetype ortho", "skinparam roundcorner 5",
    "skinparam component \x7b", "  BackgroundColor White", "  ArrowColor Gray",
    "  BorderColor Gray", "\x7d"]

/-- The component diagram of a project. -/
def Project.diagram (p : Project) : Diagram :=
  let (files, ids) := dockerfileNodes .empty p.dockerfiles
  let d : Diagram := { title := "Docker Project: " ++ p.name, preamble }
  let d := d.addContainer ⟨"Dockerfiles", files, []⟩
  match p.compose with
  | some c =>
    let (container, edges) := c.parts ids
    { d.addContainer container with edges }
  | none => d

/-- The text of the diagram. -/
def Project.plantUml (p : Project) : String := PlantUml.render p.diagram

/-- The lines of the summary about a Dockerfile. -/
def Dockerfile.summary (f : Dockerfile) : List String :=
  ["## " ++ f.path, "", "- Base image: `" ++ f.baseImage ++ "`"] ++
    (if 1 < f.stages.length then
      ["- Stages: " ++ String.intercalate ", " (f.stages.map (·.label))] else []) ++
    (if f.exposedPorts.isEmpty then []
      else ["- Exposed ports: " ++ String.intercalate ", " f.exposedPorts]) ++
    f.commands.map (fun c => "- " ++ c.kind ++ ": `" ++ c.command ++ "`") ++ [""]

/-- The row of a service. -/
def Service.row (s : Service) : String :=
  let image := match s.image, s.build with
    | some image, _ => image
    | none, some b => "build: " ++ b.context
    | none, none => ""
  let ports := String.intercalate ", " (s.ports.map (·.label))
  "| " ++ s.name ++ " | " ++ image ++ " | " ++ ports ++ " | " ++
    String.intercalate ", " s.dependsOn ++ " |"

/-- The lines of the summary about a compose file. -/
def Compose.summary (c : Compose) : List String :=
  ["## Compose Services", "", "| Service | Image | Ports | Depends on |",
    "|---------|-------|-------|------------|"] ++ c.services.map (·.row) ++ [""]

/-- The Markdown summary of a project. -/
def Project.markdown (p : Project) : String :=
  Text.unlines (["# Docker Project: " ++ p.name, ""] ++ p.dockerfiles.flatMap (·.summary) ++
    p.compose.toList.flatMap Compose.summary ++ ["## Diagram", "", "```plantuml"]) ++
    p.plantUml ++ "```\n"

end Atlas.Docker
