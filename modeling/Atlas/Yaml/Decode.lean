import Atlas.Yaml.Value

/-!
# Typed reading of YAML

Readers for the nodes of a document that are to have a certain type. They look at the node as it is
written: a text is whatever a scalar says, in quotes or not, while a truth value or a number has to
be plain. What is left out counts as an empty list or as a mapping without entries.
-/

namespace Atlas.Yaml

/-- Reads a value of some type from a node of a document. -/
abbrev Decode (α : Type) := Document → Node → Option α

namespace Decode

/-- The node that an alias stands for; any other node stands for itself. -/
def target? (d : Document) : Node → Option Node
  | .reference id => d.target? id
  | n => some n

/-- The text of a scalar. -/
def text : Decode String := fun d n => do
  match ← target? d n with
  | .scalar _ _ s => some s
  | _ => none

/-- A scalar that may be of a kind other than text: it is plain, or a literal block with the tag of
that kind. -/
def mayBe (kind : String) (tag : Option String) (style : ScalarStyle) : Bool :=
  style == .plain || (style == .literal && tag == some (Value.coreTag kind))

/-- A truth value. -/
def bool : Decode Bool := fun d n => do
  match ← target? d n with
  | .scalar tag style s => if mayBe "bool" tag style then Plain.bool? s else none
  | _ => none

/-- A natural number below `bound`. -/
def natural (bound : Nat) : Decode Nat := fun d n => do
  match ← target? d n with
  | .scalar tag style s =>
    if mayBe "int" tag style then (Plain.natural? s.toList).filter (· < bound) else none
  | _ => none

/-- A value, or nothing where the node is left out or says so. -/
def optional {α : Type} (f : Decode α) : Decode (Option α) := fun d n => do
  match ← target? d n with
  | .scalar tag .plain s =>
    if tag = some (Value.coreTag "null") then if Plain.isNull s then some none else none
    else if tag.isNone ∧ (s.isEmpty ∨ Plain.isNull s) then some none
    else (f d n).map some
  | _ => (f d n).map some

/-- A list. -/
def list {α : Type} (f : Decode α) : Decode (List α) := fun d n => do
  match ← target? d n with
  | .sequence _ items => items.mapM (f d)
  | .scalar _ .plain "" => some []
  | _ => none

/-- The fields of a mapping by name. -/
abbrev Fields := List (String × Node)

/-- The entries of a mapping, all of whose keys are scalars. -/
def fields : Decode Fields := fun d n => do
  match ← target? d n with
  | .mapping _ entries => entries.mapM fun (k, v) => do return (← text d k, v)
  | .scalar _ .plain "" => some []
  | _ => none

/-- Refuses fields of which one of the given names stands twice; others may. -/
def unique (names : List String) (fs : Fields) : Option Unit :=
  if names.all fun n => (fs.filter fun f => f.1 == n).length ≤ 1 then some () else none

/-- The value of a field, or `otherwise` where it is missing. -/
def field {α : Type} (d : Document) (fs : Fields) (name : String) (otherwise : α) (f : Decode α) :
    Option α :=
  match fs.lookup name with
  | some n => f d n
  | none => some otherwise

end Decode

end Atlas.Yaml
