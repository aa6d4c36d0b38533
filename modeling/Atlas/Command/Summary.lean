import Atlas.Analysis.Record
import Atlas.Swagger.Endpoint

/-!
# Summaries

What is shown of an analysis once its documentation is written: how much of each kind was found, how
long it took, and which phases failed.
-/

namespace Atlas

/-- The number nearest to a number of either kind. -/
def Number.toBinary64 : Number → Binary64
  | .int n => .ofDecimal (n < 0) n.natAbs 0
  | .float x => x

/-- The magnitude of a finite number with one digit after the point, a tie to the even digit. -/
def Binary64.oneDecimalText (x : Binary64) : String :=
  let (num, den) := ratio x.significand x.exponent
  let tenths := divideRounded (num * 10) den 0
  toString (tenths / 10) ++ "." ++ toString (tenths % 10)

/-- Milliseconds with their unit. -/
def Binary64.millisecondsText (x : Binary64) : String := x.oneDecimalText ++ "ms"

namespace Analysis

/-- A line with a label and a value, the values of all lines at one column. -/
def summaryLine (label value : String) : String :=
  label ++ Text.repeated (14 - label.length) " " ++ " " ++ value

/-- How much of each kind was found. -/
def counts (a : Analysis) : List (String × Nat) :=
  (a.golang.map fun p => ("Go packages:", p.directories.length)).toList ++
    (a.kubernetes.map fun m => ("K8s resources:", m.resources.length)).toList ++
    (if a.databases.isEmpty then [] else [("Databases:", a.databases.length)]) ++
    (a.docker.map fun p => ("Dockerfiles:", p.dockerfiles.length)).toList ++
    (a.laravel.map fun p => ("Models:", p.models.length)).toList ++
    (a.nextjs.map fun p => ("Pages:", p.pages.length)).toList ++
    (a.swagger.map fun s => ("Endpoints:", s.endpoints.length)).toList ++
    [("Relations:", a.relationCount)]

/-- The lines on how long the phases took. -/
def timingLines (a : Analysis) (t : Timing) : List String :=
  let thousand := Binary64.ofDecimal false 1000 0
  ["", "  Phase Timings:"] ++ (a.phaseSeconds t).map fun (name, seconds) =>
    "    " ++ summaryLine name (seconds.toBinary64.mul thousand).millisecondsText

/-- The summary of an analysis; a verbose one tells how long each phase took. -/
def summary (a : Analysis) (t : Timing) (verbose : Bool) : List String :=
  ["", "✓  aimap documentation"] ++
    (a.counts.map fun (label, n) => "  " ++ summaryLine label (toString n)) ++
    ["  " ++ summaryLine "Duration:" t.milliseconds.toBinary64.millisecondsText] ++
    (if a.failed.isEmpty then []
      else ["  " ++ summaryLine "Failed:" (String.intercalate ", " (a.failed.map (·.name)))]) ++
    (if verbose then a.timingLines t else [])

end Analysis

end Atlas
