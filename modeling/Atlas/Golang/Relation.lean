import Atlas.Golang.Project

/-!
# Relations of Go types

Which type a field refers to, and which structs implement which interfaces, as far as the texts of
types tell.
-/

namespace Atlas.Golang

/-- The types that every package knows. -/
def basicTypes : List String :=
  ["string", "int", "bool", "int8", "int16", "int32", "int64", "uint", "uint8", "uint16", "uint32",
    "uint64", "uintptr", "float32", "float64", "complex64", "complex128", "byte", "rune", "error",
    "any", "interface\x7b\x7d"]

/-- Whether a type is not followed, for what its text contains. -/
def isOpaque (t : String) : Bool :=
  ["regexp.Regexp", "template.Template", "ast.", "time.", "chan"].any (Text.contains · t) ||
    Text.startsWith "map[" t || Text.startsWith "func" t

/-- The text without the stars at its start. -/
def dropStars (t : List Char) : List Char := t.dropWhile (· == '*')

/-- The text without the brackets of slices at its start. -/
def dropSlices : List Char → List Char
  | '[' :: ']' :: r => dropSlices r
  | t => t

/-- What stands before the first opening bracket. -/
def beforeBracket (t : List Char) : List Char := t.takeWhile (· != '[')

/-- The type that a field of this type refers to, as its package, if it names one, and its name. -/
def relatedType? (fieldType : String) : Option (Option String × String) :=
  let t := dropStars (dropSlices (dropStars fieldType.toList))
  if basicTypes.contains (String.ofList t) || isOpaque (String.ofList t) then none
  else
    let t := beforeBracket t
    match Chars.cut? ['.'] t with
    | none => if t.isEmpty then none else some (none, String.ofList t)
    | some (package, name) =>
      if package.isEmpty || name.isEmpty || name.contains '.' then none
      else some (some (String.ofList package), String.ofList name)

/-- The name of a struct's own package that a field refers to. -/
def StructField.localType? (f : StructField) : Option String :=
  match relatedType? f.type with
  | some (none, name) => some name
  | _ => none

/-- The short form in which a type is shown. -/
def displayType (type : String) : String :=
  let t := dropStars type.toList
  let text := String.ofList t
  if Text.startsWith "[]" text then "Array"
  else if Text.startsWith "map[" text then "Map"
  else if Text.contains "chan" text then "Channel"
  else if Text.contains "regexp.Regexp" text then "RegExp"
  else
    let t := beforeBracket t
    match Chars.cutLast? '.' t with
    | some (_, name) => String.ofList name
    | none => String.ofList t

/-- Whether a struct has a method of the name and with the signature of each method of an interface
that has any. -/
def implements (s : Struct) (i : Interface) : Bool :=
  !i.methods.isEmpty && i.methods.all fun m =>
    s.methods.any fun n => n.name == m.name && n.signature == m.signature

end Atlas.Golang
