import Atlas.Docker.Project
import Atlas.Data.Fields

/-!
# Docker records

A project as plain data, and back.
-/

namespace Atlas.Docker

/-- A stage as plain data. -/
def Stage.toData (s : Stage) : Data :=
  .record [("index", .nat s.index), ("name", .optionalText s.name), ("base", .text s.base),
    ("steps", .list (s.steps.map fun t =>
      .record [("instruction", .text t.instruction), ("arguments", .text t.arguments)]))]

/-- A variable as plain data. -/
def Variable.toData (v : Variable) : Data :=
  .record [("key", .text v.key), ("value", .text v.value)]

/-- A command as plain data. -/
def Command.toData (c : Command) : Data :=
  .record ([("kind", .text c.kind), ("command", .text c.command)] ++
    Data.listMember? "args" (c.args.map .text))

/-- A Dockerfile as plain data. -/
def Dockerfile.toData (f : Dockerfile) : Data :=
  .record [("path", .text f.path), ("base_image", .text f.baseImage),
    ("stages", .list (f.stages.map (·.toData))), ("env", .list (f.environment.map (·.toData))),
    ("exposed_ports", .texts f.exposedPorts), ("volumes", .texts f.volumes),
    ("commands", .list (f.commands.map (·.toData)))]

/-- A port as plain data. -/
def Port.toData (p : Port) : Data :=
  .record [("host", .optionalText p.host), ("container", .text p.container),
    ("protocol", .optionalText p.protocol)]

/-- A mounted volume as plain data. -/
def Mount.toData (m : Mount) : Data :=
  .record [("source", .text m.source), ("target", .text m.target), ("read_only", .bool m.readOnly)]

/-- A build as plain data. -/
def Build.toData (b : Build) : Data :=
  .record [("context", .text b.context), ("dockerfile", .optionalText b.dockerfile),
    ("target", .optionalText b.target)]

/-- A service as plain data. -/
def Service.toData (s : Service) : Data :=
  .record [("name", .text s.name), ("image", .optionalText s.image),
    ("build", .optional Build.toData s.build), ("ports", .list (s.ports.map (·.toData))),
    ("volumes", .list (s.volumes.map (·.toData))),
    ("environment", .list (s.environment.map (·.toData))), ("networks", .texts s.networks),
    ("depends_on", .texts s.dependsOn), ("restart", .optionalText s.restart),
    ("healthcheck", .optionalText s.healthcheck), ("replicas", .optional Data.nat s.replicas)]

/-- A network or a volume as plain data. -/
def Shared.toData (s : Shared) : Data :=
  .record [("name", .text s.name), ("driver", .optionalText s.driver)]

/-- A compose file as plain data. -/
def Compose.toData (c : Compose) : Data :=
  .record [("version", .text c.version), ("services", .list (c.services.map (·.toData))),
    ("networks", .list (c.networks.map (·.toData))), ("volumes", .list (c.volumes.map (·.toData)))]

/-- A project as plain data. -/
def Project.toData (p : Project) : Data :=
  .record ([("name", .text p.name), ("dockerfiles", .list (p.dockerfiles.map (·.toData)))] ++
    Data.member? "compose" (p.compose.map Compose.toData))

/-! ## Reading -/

/-- The stage of a record. -/
def Stage.ofData (d : Data) : Stage :=
  { index := d.natOf "index", name := d.textOf? "name", base := d.textOf "base"
    steps := Data.listOf (fun t => ⟨t.textOf "instruction", t.textOf "arguments"⟩) d "steps" }

/-- The variable of a record. -/
def Variable.ofData (d : Data) : Variable := ⟨d.textOf "key", d.textOf "value"⟩

/-- The command of a record. -/
def Command.ofData (d : Data) : Command := ⟨d.textOf "kind", d.textOf "command", d.textsOf "args"⟩

/-- The Dockerfile of a record. -/
def Dockerfile.ofData (d : Data) : Dockerfile :=
  { path := d.textOf "path", baseImage := d.textOf "base_image"
    stages := Data.listOf Stage.ofData d "stages"
    environment := Data.listOf Variable.ofData d "env"
    exposedPorts := d.textsOf "exposed_ports", volumes := d.textsOf "volumes"
    commands := Data.listOf Command.ofData d "commands" }

/-- The port of a record. -/
def Port.ofData (d : Data) : Port :=
  ⟨d.textOf? "host", d.textOf "container", d.textOf? "protocol"⟩

/-- The mounted volume of a record. -/
def Mount.ofData (d : Data) : Mount :=
  ⟨d.textOf "source", d.textOf "target", d.flagOf "read_only"⟩

/-- The build of a record. -/
def Build.ofData (d : Data) : Build :=
  ⟨d.textOf "context", d.textOf? "dockerfile", d.textOf? "target"⟩

/-- The service of a record. -/
def Service.ofData (d : Data) : Service :=
  { name := d.textOf "name", image := d.textOf? "image"
    build := Data.optionOf Build.ofData d "build", ports := Data.listOf Port.ofData d "ports"
    volumes := Data.listOf Mount.ofData d "volumes"
    environment := Data.listOf Variable.ofData d "environment"
    networks := d.textsOf "networks", dependsOn := d.textsOf "depends_on"
    restart := d.textOf? "restart", healthcheck := d.textOf? "healthcheck"
    replicas := d.natOf? "replicas" }

/-- The network or volume of a record. -/
def Shared.ofData (d : Data) : Shared := ⟨d.textOf "name", d.textOf? "driver"⟩

/-- The compose file of a record. -/
def Compose.ofData (d : Data) : Compose :=
  { version := d.textOf "version", services := Data.listOf Service.ofData d "services"
    networks := Data.listOf Shared.ofData d "networks"
    volumes := Data.listOf Shared.ofData d "volumes" }

/-- The project of a record. -/
def Project.ofData (d : Data) : Project :=
  { name := d.textOf "name", dockerfiles := Data.listOf Dockerfile.ofData d "dockerfiles"
    compose := Data.optionOf Compose.ofData d "compose" }

end Atlas.Docker
