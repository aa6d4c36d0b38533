import Atlas.Analysis.Basic
import Atlas.Docker.Record
import Atlas.Golang.Record
import Atlas.Graph.Record
import Atlas.Kubernetes.Record
import Atlas.Laravel.Record
import Atlas.Nextjs.Record
import Atlas.Sql.Record
import Atlas.Swagger.Record

/-!
# Records of analyses

An analysis as plain data, with when it was made and how long its phases took. A section that has
not been found is left out.
-/

namespace Atlas

/-- When an analysis was made, and how long it took. -/
structure Timing where
  /-- When it started, as it is shown. -/
  startedAt : String
  /-- How many seconds a phase took. -/
  seconds : Phase → Number
  /-- How many milliseconds all took. -/
  milliseconds : Number

namespace Analysis

/-- The version of the format of the record. -/
def formatVersion : String := "1.0.0"

/-- How long the phases took, in the order of their names. -/
def phaseSeconds (a : Analysis) (t : Timing) : List (String × Number) :=
  Data.sortedMembers (a.settings.phases.map fun p => (p.name, t.seconds p))

/-- What is noted about the making of an analysis: the phases that failed, if there are any, and
how long it took. -/
def metadata (a : Analysis) (t : Timing) : Data :=
  .record (
    Data.listMember? "failed_phases" (a.failed.map fun p => .text p.name) ++
    [("phase_timings", .record ((a.phaseSeconds t).map fun (name, n) => (name, .number n))),
      ("total_ms", .number t.milliseconds)])

/-- The relations as plain data, by source. -/
def relationData (a : Analysis) : Data :=
  .record (a.relations.map fun (source, rs) => (source, .list (rs.map (·.toData))))

/-- The analysis as plain data. -/
def toData (a : Analysis) (t : Timing) : Data :=
  .record (
    [("version", .text formatVersion), ("generated_at", .text t.startedAt),
      ("metadata", a.metadata t)] ++
    Data.member? "golang" (a.golang.map (·.toData)) ++
    Data.member? "kubernetes" (a.kubernetes.map (·.toData)) ++
    Data.listMember? "databases" (a.databases.map (·.toData)) ++
    Data.member? "docker" (a.docker.map (·.toData)) ++
    Data.member? "laravel" (a.laravel.map (·.toData)) ++
    Data.member? "nextjs" (a.nextjs.map (·.toData)) ++
    Data.member? "swagger" (a.swagger.map (·.toData)) ++
    [("relations", a.relationData)])

end Analysis

end Atlas
