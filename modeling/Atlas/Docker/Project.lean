/-!
# Docker projects

What is documented of a project that is run in containers: its Dockerfiles with their build stages,
and the services, networks and volumes of its compose file.
-/

namespace Atlas.Docker

/-- A step of a build stage. -/
structure Step where
  instruction : String
  arguments : String
  deriving DecidableEq, Repr

/-- A build stage. -/
structure Stage where
  index : Nat
  name : Option String
  base : String
  steps : List Step := []
  deriving DecidableEq, Repr

/-- The name under which a stage is shown. -/
def Stage.label (s : Stage) : String := s.name.getD ("stage " ++ toString s.index)

/-- A variable of an environment. -/
structure Variable where
  key : String
  value : String
  deriving DecidableEq, Repr

/-- How a variable is shown. -/
def Variable.label (v : Variable) : String := v.key ++ "=" ++ v.value

/-- What a container runs. -/
structure Command where
  kind : String
  command : String
  /-- The words of a command that is written as a list. -/
  args : List String := []
  deriving DecidableEq, Repr

structure Dockerfile where
  /-- The path below the root of the project. -/
  path : String := ""
  baseImage : String := ""
  stages : List Stage := []
  environment : List Variable := []
  exposedPorts : List String := []
  volumes : List String := []
  commands : List Command := []
  deriving DecidableEq, Repr

/-- How the image of a service is built. -/
structure Build where
  context : String
  dockerfile : Option String := none
  target : Option String := none
  deriving DecidableEq, Repr

/-- A port of a service that is reached from outside. -/
structure Port where
  host : Option String := none
  container : String
  protocol : Option String := none
  deriving DecidableEq, Repr

/-- How a port is shown. -/
def Port.label (p : Port) : String :=
  (p.host.map (· ++ ":")).getD "" ++ p.container ++ (p.protocol.map ("/" ++ ·)).getD ""

/-- A volume that a service uses. -/
structure Mount where
  source : String := ""
  target : String
  readOnly : Bool := false
  deriving DecidableEq, Repr

/-- Whether a path of the host is mounted and no named volume. -/
def Mount.isBind (m : Mount) : Bool :=
  match m.source.toList with
  | c :: _ => c == '.' || c == '/' || c == '~'
  | [] => false

structure Service where
  name : String
  image : Option String := none
  build : Option Build := none
  ports : List Port := []
  volumes : List Mount := []
  environment : List Variable := []
  networks : List String := []
  dependsOn : List String := []
  restart : Option String := none
  healthcheck : Option String := none
  replicas : Option Nat := none
  deriving DecidableEq, Repr

/-- A network or a volume that services share. -/
structure Shared where
  name : String
  driver : Option String := none
  deriving DecidableEq, Repr

structure Compose where
  version : String := ""
  services : List Service := []
  networks : List Shared := []
  volumes : List Shared := []
  deriving DecidableEq, Repr

structure Project where
  name : String
  dockerfiles : List Dockerfile := []
  compose : Option Compose := none
  deriving DecidableEq, Repr

end Atlas.Docker
