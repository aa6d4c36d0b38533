import Atlas.Chars.Nested
import Atlas.Sql.Database

/-!
# Arguments of functions

PostgreSQL prints the arguments of a function in one text, in which a name cannot be told from the
first word of a type. The catalog has the modes and names of all arguments beside it, the columns of
a result table included, which the text leaves out. `arguments` puts the three together.
-/

namespace Atlas.Sql

/-- The pieces between commas; an empty text has none. -/
def pieces (s : String) : List String := if s = "" then [] else Text.splitOn ',' s

/-- The places of the arguments that are printed: all but the columns of a result table. -/
def printedPlaces (codes names : List String) : List Nat :=
  (List.range (max codes.length names.length)).filter fun i => codes[i]? ≠ some "t"

/-- The words that may stand before an argument, each with a blank. -/
def modeWords : List String := ["INOUT ", "IN ", "OUT ", "VARIADIC "]

/-- The declaration of an argument without its mode. -/
def withoutMode (s : String) : String :=
  match modeWords.findSome? fun w => Text.dropPrefix? w s with
  | some rest => Text.trimStart rest
  | none => s

/-- The declaration of an argument, and its default. -/
def cutDefault (s : String) : String × Option String :=
  match Text.cut? " DEFAULT " s with
  | some (d, v) => (Text.trim d, some (Text.trim v))
  | none => (s, none)

/-- The type in a declaration that may start with a name. -/
def typeAfter (name declaration : String) : String :=
  match Text.dropPrefix? name declaration with
  | some rest =>
    if name ≠ "" ∧ Text.startsWith " " rest then Text.trim rest else declaration
  | none => declaration

/-- The argument of a printed piece, with the mode code and the name that the catalog has for it. -/
def Argument.ofPiece (code : Option String) (name : String) (piece : String) : Argument :=
  let (declaration, default) := cutDefault (Text.trim piece)
  { name
    type := typeAfter name (withoutMode declaration)
    mode := (code.map ArgumentMode.ofCode).getD .input
    default }

/-- The arguments printed in `text`, where `codes` and `names` are the modes and names of all. -/
def arguments (text codes names : String) : List Argument :=
  if Text.isBlank text then []
  else
    let codes := pieces codes
    let names := pieces names
    let places := printedPlaces codes names
    ((Chars.splitTopLevel ['\''] text.toList).map String.ofList).mapIdx fun i piece =>
      let place := places[i]?.getD i
      Argument.ofPiece codes[place]? (names[place]?.getD "") piece

theorem arguments_of_isBlank {text : String} (h : Text.isBlank text = true) (codes names : String) :
    arguments text codes names = [] := by
  simp [arguments, h]

end Atlas.Sql
