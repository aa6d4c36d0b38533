import Atlas.Data.Basic

/-!
# Reading records

What a record of plain data holds under a name, as a value of some type. Where it holds nothing, or
something of another type, there is an empty value instead.
-/

namespace Atlas.Data

/-! ## Values -/

/-- The items of a list. -/
def items : Data → List Data
  | .list ds => ds
  | _ => []

/-- The members of a record. -/
def members : Data → List (String × Data)
  | .record ms => ms
  | _ => []

/-- A text. -/
def text? : Data → Option String
  | .text s => some s
  | _ => none

/-- A text, or else the empty one. -/
def toText (d : Data) : String := d.text?.getD ""

/-- A truth value, or else `false`. -/
def toFlag : Data → Bool
  | .bool b => b
  | _ => false

/-- An integer. -/
def int? : Data → Option Int
  | .number (.int i) => some i
  | _ => none

/-- A natural number, or else zero. -/
def toNat (d : Data) : Nat := (d.int?.getD 0).toNat

/-- A number in floating point. -/
def float? : Data → Option Binary64
  | .number (.float x) => some x
  | .number (.int i) => some (Binary64.ofRatio (i < 0) i.natAbs 1)
  | _ => none

/-! ## Members -/

/-- What a record holds under a name. -/
def get (d : Data) (name : String) : Data := (d.get? name).getD .null

/-- The text under a name, or else the empty one. -/
def textOf (d : Data) (name : String) : String := (d.get name).toText

/-- The text under a name. -/
def textOf? (d : Data) (name : String) : Option String := (d.get name).text?

/-- The truth value under a name, or else `false`. -/
def flagOf (d : Data) (name : String) : Bool := (d.get name).toFlag

/-- The natural number under a name, or else zero. -/
def natOf (d : Data) (name : String) : Nat := (d.get name).toNat

/-- The natural number under a name. -/
def natOf? (d : Data) (name : String) : Option Nat := (d.get name).int?.map Int.toNat

/-- The items of the list under a name, each read by `f`. -/
def listOf {α : Type} (f : Data → α) (d : Data) (name : String) : List α :=
  (d.get name).items.map f

/-- The texts under a name. -/
def textsOf (d : Data) (name : String) : List String := listOf toText d name

/-- What stands under a name, read by `f`. -/
def optionOf {α : Type} (f : Data → α) (d : Data) (name : String) : Option α :=
  match d.get name with
  | .null => none
  | v => some (f v)

theorem textOf_record (name s : String) (ms : List (String × Data)) (h : name ∉ ms.map (·.1)) :
    textOf (.record ((name, .text s) :: ms)) name = s := by
  have hn : ms.reverse.lookup name = none := by
    rw [List.lookup_eq_none_iff]
    intro p hp
    have : p.1 ∈ ms.map (·.1) := List.mem_map_of_mem (List.mem_reverse.1 hp)
    simpa using fun he : name = p.1 => h (he ▸ this)
  simp [textOf, get, get?, lookup?, List.lookup_append, hn, toText, text?]

end Atlas.Data
