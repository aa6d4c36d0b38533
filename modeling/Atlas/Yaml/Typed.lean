import Atlas.Yaml.Value

/-!
# Typed reading of values

Readers for values that are to have a certain type. Unlike the readers of nodes in `Yaml.Decode`
they go by what a value is and not by how it is written: a number is no text. Tags are looked
through, and nothing counts as an empty list or as a mapping without entries.
-/

namespace Atlas.Yaml.Typed

/-- Reads a value of some type. -/
abbrev Typed (α : Type) := Value → Option α

/-- A text. -/
def text : Typed String := fun v =>
  match v.untagged with
  | .text s => some s
  | _ => none

/-- A natural number that is held in 64 bits. -/
def natural : Typed Nat := fun v =>
  match v.untagged with
  | .number (.int n) => if 0 ≤ n then some n.toNat else none
  | _ => none

/-- A value, or nothing. -/
def optional {α : Type} (f : Typed α) : Typed (Option α) := fun v =>
  match v with
  | .null => some none
  | v => (f v).map some

/-- A list. -/
def list {α : Type} (f : Typed α) : Typed (List α) := fun v =>
  match v.untagged with
  | .sequence items => items.mapM f
  | .null => some []
  | _ => none

/-- The fields of a mapping by name. -/
abbrev Fields := List (String × Value)

/-- The entries of a mapping, all of whose keys are texts. -/
def entries : Typed Fields := fun v =>
  match v.untagged with
  | .mapping es => es.mapM fun (k, v) => do return (← text k, v)
  | .null => some []
  | _ => none

/-- The fields of a mapping in which none of the given names stands twice. -/
def fields (names : List String) : Typed Fields := fun v => do
  let fs ← entries v
  if names.all fun n => (fs.filter fun f => f.1 == n).length ≤ 1 then some fs else none

/-- The value of a field, or `otherwise` where it is missing. -/
def field {α : Type} (fs : Fields) (name : String) (otherwise : α) (f : Typed α) : Option α :=
  match fs.lookup name with
  | some v => f v
  | none => some otherwise

/-- The value of a field that has to be there. -/
def required {α : Type} (fs : Fields) (name : String) (f : Typed α) : Option α := do
  f (← fs.lookup name)

end Atlas.Yaml.Typed
