import Atlas.Json.Reader

/-!
# Typed reading of JSON

Readers for trees that are to have a certain type. A structure is read from a record, in which no
field stands twice and what is no field may be anything, or from a list of its fields in their
order. Every level of lists and records takes one off the depth that is left.
-/

namespace Atlas.Json

/-- Reads a value of some type, with a depth that is left. -/
abbrev Typed (α : Type) := Nat → Tree → Option α

namespace Typed

/-- A text. -/
def text : Typed String
  | _, .text s => s
  | _, _ => none

/-- A truth value. -/
def bool : Typed Bool
  | _, .bool b => some b
  | _, _ => none

/-- Plain data, with the members of records in the order of their names. -/
def data : Typed Data := fun depth t => (t.toData? depth).map Data.sorted

/-- A value, or nothing. -/
def optional {α : Type} (f : Typed α) : Typed (Option α)
  | _, .null => some none
  | depth, t => (f depth t).map some

/-- A list. -/
def list {α : Type} (f : Typed α) : Typed (List α)
  | depth + 1, .list ts => ts.mapM (f depth)
  | _, _ => none

/-- A record of values of one type, in the order of their names; of several with one name the last
is kept. -/
def record {α : Type} (f : Typed α) : Typed (List (String × α))
  | depth + 1, .record ms =>
    (ms.mapM fun (m : Option String × Tree) => do return (← m.1, ← f depth m.2)).map Data.sortedMembers
  | _, _ => none

/-- The fields of a structure by name. -/
abbrev Fields := List (String × Tree)

/-- The fields of a structure that has those named. -/
def fields (names : List String) : Tree → Option Fields
  | .record ms => do
    let ms ← ms.mapM fun (m : Option String × Tree) => m.1.map (·, m.2)
    if names.all fun n => (ms.filter fun m => m.1 == n).length ≤ 1 then some ms else none
  | .list ts => if ts.length ≤ names.length then some (names.zip ts) else none
  | _ => none

/-- A field, or `otherwise` where it is missing. -/
def field {α : Type} (fs : Fields) (depth : Nat) (name : String) (otherwise : α) (f : Typed α) :
    Option α :=
  match fs.lookup name with
  | some t => f depth t
  | none => some otherwise

/-- A field that has to be there. -/
def required {α : Type} (fs : Fields) (depth : Nat) (name : String) (f : Typed α) : Option α :=
  (fs.lookup name).bind (f depth)

end Typed

end Atlas.Json
