import Atlas.Docker.Project
import Atlas.Text
import Atlas.Graph

/-!
# Entities of a Docker project

Dockerfiles with their stages, and services with what they depend on. A stage inherits from the
first earlier stage that has the name of its base, in any case.
-/

namespace Atlas.Docker

/-- The entity of a Dockerfile. -/
def Dockerfile.entity (f : Dockerfile) : Entity := { kind := .dockerfile, name := f.path }

/-- The entity of a stage of a Dockerfile. -/
def stageEntity (path : String) (s : Stage) : Entity :=
  { kind := .stage, name := s.label, scope := some path }

/-- The entity of a service name. -/
def serviceEntity (name : String) : Entity := { kind := .composeService, name }

/-- The entity of a network name. -/
def networkEntity (name : String) : Entity := { kind := .network, name }

/-- The entity of a volume name. -/
def volumeEntity (name : String) : Entity := { kind := .volume, name }

/-- The stage whose result a stage is built on. -/
def parentStage? (f : Dockerfile) (s : Stage) : Option Stage :=
  (f.stages.take s.index).find? fun p => p.name.any fun n => Text.equalIgnoringCase n s.base

/-- The graph with a stage, unless the file has one of that name already. -/
def addStage (f : Dockerfile) (g : Graph) (s : Stage) : Graph :=
  let entity := stageEntity f.path s
  match g.add { entity, attributes := [("base", s.base)] } with
  | .error _ => g
  | .ok (_, g) =>
    let g := g.relate ⟨f.entity, entity, .contains, none⟩
    match parentStage? f s with
    | some p => g.relate ⟨entity, stageEntity f.path p, .inherits, none⟩
    | none => g

/-- The graph with a Dockerfile and its stages, unless it has one of that path already. -/
def addDockerfile (g : Graph) (f : Dockerfile) : Graph :=
  match g.add { entity := f.entity, attributes := [("base", f.baseImage)] } with
  | .error _ => g
  | .ok (_, g) => f.stages.foldl (addStage f) g

/-- The named volumes that a service mounts. -/
def Service.namedVolumes (s : Service) : List Mount :=
  s.volumes.filter fun v => v.source ≠ "" ∧ !v.isBind

/-- What a service depends on, is connected to and mounts. -/
def Service.relations (s : Service) : List Relation :=
  let source := serviceEntity s.name
  s.dependsOn.map (fun d => ⟨source, serviceEntity d, .dependsOn, none⟩) ++
    s.networks.map (fun n => ⟨source, networkEntity n, .connects, none⟩) ++
    s.namedVolumes.map fun v => ⟨source, volumeEntity v.source, .mounts, some v.target⟩

/-- The entities of a compose file. -/
def Compose.nodes (c : Compose) : List EntityNode :=
  c.networks.map (fun n => { entity := networkEntity n.name }) ++
    c.volumes.map (fun v => { entity := volumeEntity v.name }) ++
    c.services.map fun s =>
      { entity := serviceEntity s.name
        attributes := (s.image.map fun i => ("image", i)).toList }

/-- The graph with the parts of a compose file. -/
def addCompose (g : Graph) (c : Compose) : Graph :=
  (c.services.flatMap (·.relations)).foldl Graph.relate (c.nodes.foldl Graph.addNew g)

/-- The graph of a project. -/
def Project.graph (p : Project) : Graph :=
  p.compose.toList.foldl addCompose (p.dockerfiles.foldl addDockerfile Graph.empty)

end Atlas.Docker
