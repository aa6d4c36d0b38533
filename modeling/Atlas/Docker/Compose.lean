import Atlas.Docker.Project
import Atlas.Error
import Atlas.Text
import Atlas.Yaml.Value

/-!
# Reading compose files

A compose file may write most things in two ways: a port, a volume or an environment as a text, or
as a mapping. Each has a reader here that understands both, and gives nothing where it is neither.
-/

namespace Atlas.Docker

open Yaml (Value)

/-- The text of a scalar. -/
def scalar? : Value → Option String
  | .text s => some s
  | .number n => some (Value.numberText n)
  | .bool b => some (if b then "true" else "false")
  | _ => none

/-- The entries of a mapping. -/
abbrev Entries := List (Value × Value)

/-- The text of a scalar by its key. -/
def textOf? (es : Entries) (key : String) : Option String := do scalar? (← Value.lookup? es key)

/-- The items of a sequence by its key. -/
def itemsOf (es : Entries) (key : String) : List Value :=
  ((Value.lookup? es key).bind Value.items?).getD []

/-! ## Ports, volumes and variables -/

/-- A port from its text: the host before the last colon, the protocol after the first slash. -/
def Port.ofText (text : String) : Port :=
  let (spec, protocol) := match Text.cut? "/" text with
    | some (spec, protocol) => (spec, some protocol)
    | none => (text, none)
  match Text.cutLast? ':' spec with
  | some (host, container) => { host := some host, container, protocol }
  | none => { container := spec, protocol }

/-- A port. -/
def Port.ofValue? : Value → Option Port
  | .mapping es => do
    return {
      host := textOf? es "published"
      container := ← textOf? es "target"
      protocol := textOf? es "protocol" }
  | v => (scalar? v).map Port.ofText

/-- A volume from its text: the source, the target, and what may be done with it. -/
def Mount.ofText (text : String) : Mount :=
  match Text.splitOn ':' text with
  | source :: target :: mode :: _ =>
    { source, target, readOnly := (Text.splitOn ',' mode).contains "ro" }
  | [source, target] => { source, target }
  | [target] => { target }
  | [] => { target := "" }

/-- A volume. -/
def Mount.ofValue? : Value → Option Mount
  | .mapping es => do
    return {
      source := (textOf? es "source").getD ""
      target := ← textOf? es "target"
      readOnly := match (Value.lookup? es "read_only").map Value.untagged with
        | some (.bool b) => b
        | _ => false }
  | v => (scalar? v).map Mount.ofText

/-- A variable from its text. -/
def Variable.ofText (text : String) : Variable :=
  match Text.cut? "=" text with
  | some (key, value) => ⟨key, value⟩
  | none => ⟨text, ""⟩

/-- An environment: a sequence of texts, or a mapping. -/
def environmentOf : Option Value → List Variable
  | some (.sequence items) => (items.filterMap scalar?).map Variable.ofText
  | some (.mapping es) =>
    es.filterMap fun (k, v) => (scalar? k).map fun k => ⟨k, (scalar? v).getD ""⟩
  | _ => []

/-- Names: the items of a sequence, or the keys of a mapping. -/
def namesOf : Option Value → List String
  | some (.sequence items) => items.filterMap scalar?
  | some (.mapping es) => es.filterMap fun (k, _) => scalar? k
  | _ => []

/-! ## Services -/

/-- How an image is built. -/
def Build.ofValue? : Value → Option Build
  | .mapping es => some {
      context := (textOf? es "context").getD "."
      dockerfile := textOf? es "dockerfile"
      target := textOf? es "target" }
  | v => (scalar? v).map fun context => { context }

/-- The command of a health check. -/
def testOf? : Value → Option String
  | .sequence items => some (String.intercalate " " (items.filterMap scalar?))
  | v => scalar? v

/-- A natural number. -/
def natural? (v : Value) : Option Nat :=
  match v.untagged with
  | .number (.int n) => if 0 ≤ n then some n.toNat else none
  | _ => none

/-- A service. What is no mapping has a name only. -/
def Service.ofValue (name : String) (body : Value) : Service :=
  match body.entries? with
  | none => { name }
  | some es =>
    { name
      image := textOf? es "image"
      build := (Value.lookup? es "build").bind Build.ofValue?
      ports := (itemsOf es "ports").filterMap Port.ofValue?
      volumes := (itemsOf es "volumes").filterMap Mount.ofValue?
      environment := environmentOf (Value.lookup? es "environment")
      networks := namesOf (Value.lookup? es "networks")
      dependsOn := namesOf (Value.lookup? es "depends_on")
      restart := textOf? es "restart"
      healthcheck := do testOf? (← (← Value.lookup? es "healthcheck").get? "test")
      replicas := do natural? (← (← Value.lookup? es "deploy").get? "replicas") }

/-- The networks or volumes of a file. -/
def Shared.ofValue (v : Option Value) : List Shared :=
  ((v.bind Value.entries?).getD []).filterMap fun (name, body) =>
    (scalar? name).map fun name => ⟨name, body.entries?.bind fun es => textOf? es "driver"⟩

/-- A compose file. -/
def Compose.ofEntries (es : Entries) : Compose :=
  { version := (textOf? es "version").getD ""
    services := (((Value.lookup? es "services").bind Value.entries?).getD []).filterMap
      fun (name, body) => (scalar? name).map fun name => Service.ofValue name body
    networks := Shared.ofValue (Value.lookup? es "networks")
    volumes := Shared.ofValue (Value.lookup? es "volumes") }

/-- The compose file of a text. -/
def Compose.read (path text : String) : Result Compose :=
  match Value.read? text with
  | none => .error (.yaml "the file cannot be read")
  | some v =>
    match v.entries? with
    | some es => .ok (Compose.ofEntries es)
    | none => .error (.parse path "top level is not a mapping")

end Atlas.Docker
