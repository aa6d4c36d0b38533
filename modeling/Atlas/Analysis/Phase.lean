import Atlas.Settings

/-!
# Phases

The phases of an analysis, one for each kind of source, in the order in which they run. The settings
say which of them take place.
-/

namespace Atlas

/-- A phase of an analysis. -/
inductive Phase where
  | golang
  | kubernetes
  | databases
  | docker
  | laravel
  | nextjs
  | swagger
  deriving DecidableEq, Repr

namespace Phase

/-- All phases, in the order in which they run. -/
def all : List Phase := [golang, kubernetes, databases, docker, laravel, nextjs, swagger]

theorem mem_all (p : Phase) : p ∈ all := by cases p <;> decide

theorem nodup_all : all.Nodup := by decide

/-- The word for a phase. -/
def name : Phase → String
  | golang => "golang"
  | kubernetes => "kubernetes"
  | databases => "databases"
  | docker => "docker"
  | laravel => "laravel"
  | nextjs => "nextjs"
  | swagger => "swagger"

/-- What is shown while a phase runs. -/
def label : Phase → String
  | golang => "Documenting Go packages"
  | kubernetes => "Mapping Kubernetes resources"
  | databases => "Reading database catalogs"
  | docker => "Reading Docker manifests"
  | laravel => "Scanning Laravel project"
  | nextjs => "Scanning Next.js project"
  | swagger => "Loading API description"

/-- Whether a phase takes place. -/
def isEnabled (s : Settings) : Phase → Bool
  | golang => s.golang.enabled
  | kubernetes => s.kubernetes.enabled
  | databases => s.databases.enabled
  | docker => s.docker.enabled
  | laravel => s.laravel.enabled
  | nextjs => s.nextjs.enabled
  | swagger => s.swagger.enabled

end Phase

/-- The phases that take place, in the order in which they run. -/
def Settings.phases (s : Settings) : List Phase := Phase.all.filter (Phase.isEnabled s)

theorem Settings.mem_phases {s : Settings} {p : Phase} :
    p ∈ s.phases ↔ p.isEnabled s = true := by
  simp [phases, Phase.mem_all]

end Atlas
