import Atlas.Swagger.Spec
import Atlas.Text

/-!
# Sample values

A value of the shape that a schema describes. References are followed through at most `maxReferences`
schemas; what lies beyond, or leads nowhere, is nothing.
-/

namespace Atlas.Swagger

/-- How many references are followed one after another. -/
def maxReferences : Nat := 5

/-- The schema that a reference names. -/
def Spec.resolve? (s : Spec) (reference : String) : Option Schema :=
  match Text.dropPrefix? "#/components/schemas/" reference with
  | some name => s.components.bind (·.lookup name)
  | none => (Text.dropPrefix? "#/definitions/" reference).bind fun name => s.definitions.lookup name

/-- A text of a format. -/
def sampleText : Option String → String
  | some "date-time" => "2024-01-01T00:00:00Z"
  | some "date" => "2024-01-01"
  | some "email" => "user@example.com"
  | some "uuid" => "00000000-0000-0000-0000-000000000000"
  | _ => "string"

mutual

/-- A value of a shape, where `resolve` knows those of references. -/
def Schema.sampleWith (resolve : String → Data) : Schema → Data
  | .mk type format properties items reference sample values =>
    match reference, sample, values with
    | some r, _, _ => resolve r
    | none, some d, _ => d
    | none, none, d :: _ => d
    | none, none, [] =>
      match type with
      | some "object" => .record (sampleMembers resolve properties)
      | some "array" => .list (sampleItems resolve items)
      | some "string" => .text (sampleText format)
      | some "integer" | some "number" => .nat 0
      | some "boolean" => .bool false
      | some _ => .null
      | none =>
        match sampleMembers resolve properties with
        | [] => .null
        | ms => .record ms

/-- Values for the members of a record. -/
def sampleMembers (resolve : String → Data) : List (String × Schema) → List (String × Data)
  | [] => []
  | (name, s) :: r => (name, s.sampleWith resolve) :: sampleMembers resolve r

/-- The items of a list. -/
def sampleItems (resolve : String → Data) : Option Schema → List Data
  | none => []
  | some s => [s.sampleWith resolve]

end

/-- A value of the schema that a reference names, where `n` more references may be followed. -/
def Spec.sampleOf (spec : Spec) : Nat → String → Data
  | 0, _ => .null
  | n + 1, reference =>
    match spec.resolve? reference with
    | some s => s.sampleWith (spec.sampleOf n)
    | none => .null

/-- A value of a shape, reached through `depth` references. -/
def Spec.sample (spec : Spec) (s : Schema) (depth : Nat) : Data :=
  s.sampleWith (spec.sampleOf (maxReferences - depth))

end Atlas.Swagger
