import Atlas.Number.Decimal

/-!
# Plain data

The trees that data formats write: nothing, truth values, numbers, texts, lists and records. A
record keeps its members in the order given.
-/

namespace Atlas

/-- A number as a data format writes it. -/
inductive Number where
  | int (value : Int)
  | float (value : Binary64)
  deriving DecidableEq, Repr

/-- A tree of plain data. -/
inductive Data where
  | null
  | bool (value : Bool)
  | number (value : Number)
  | text (value : String)
  | list (items : List Data)
  | record (members : List (String × Data))
  deriving Repr, Inhabited

namespace Data

/-- A natural number. -/
def nat (n : Nat) : Data := .number (.int n)

/-- A list of texts. -/
def texts (ss : List String) : Data := .list (ss.map .text)

/-- A value, or nothing. -/
def optional {α : Type} (f : α → Data) : Option α → Data
  | some a => f a
  | none => .null

/-- A text, or nothing. -/
def optionalText : Option String → Data := optional .text

/-- The value of the last member with this name. -/
def lookup? (members : List (String × Data)) (name : String) : Option Data :=
  members.reverse.lookup name

/-- The value of a member of a record. -/
def get? : Data → String → Option Data
  | .record members, name => lookup? members name
  | _, _ => none

/-- A member that stands in a record only if it has a value. -/
def member? (name : String) (value : Option Data) : List (String × Data) :=
  match value with
  | some v => [(name, v)]
  | none => []

/-- A list that stands in a record only if it is not empty. -/
def listMember? (name : String) (items : List Data) : List (String × Data) :=
  if items.isEmpty then [] else [(name, .list items)]

/-- Inserts a member, in the order of names, in place of one with the same name. -/
def insertMember {α : Type} (name : String) (value : α) : List (String × α) → List (String × α)
  | [] => [(name, value)]
  | (n, v) :: r =>
    if name < n then (name, value) :: (n, v) :: r
    else if name = n then (name, value) :: r
    else (n, v) :: insertMember name value r

/-- The members in the order of their names; of several with one name the last is kept. -/
def sortedMembers {α : Type} (members : List (String × α)) : List (String × α) :=
  members.foldl (fun acc (n, v) => insertMember n v acc) []

mutual

/-- The tree with the members of every record in the order of their names. -/
def sorted : Data → Data
  | .list items => .list (sortedItems items)
  | .record members => .record (sortedMembers (sortedValues members))
  | d => d

/-- `sorted` of every item. -/
def sortedItems : List Data → List Data
  | [] => []
  | d :: ds => sorted d :: sortedItems ds

/-- `sorted` of every value. -/
def sortedValues : List (String × Data) → List (String × Data)
  | [] => []
  | (n, d) :: ds => (n, sorted d) :: sortedValues ds

end

end Data

end Atlas
