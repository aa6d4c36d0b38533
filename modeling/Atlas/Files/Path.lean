import Atlas.Text

/-!
# Paths

Paths as texts with slashes: their components, their last name with its stem and extension, one
path below another, and the lexically cleaned path (`Path.clean`).
-/

namespace Atlas.Path

/-- Whether the path starts at the root. -/
def isAbsolute (p : String) : Bool := Text.startsWith "/" p

/-- The names between the slashes, those that are empty or a single dot left out. -/
def components (p : String) : List String :=
  (Text.splitOn '/' p).filter fun c => c ≠ "" ∧ c ≠ "."

/-- The parts of a path: the root, a dot that comes first, and the names. -/
def parts (p : String) : List String :=
  if isAbsolute p then "/" :: components p
  else if (Text.splitOn '/' p).head? = some "." then "." :: components p
  else components p

/-- The parts of the directory that holds what stands at a path. The root and the empty path have
none. -/
def parentParts? (p : String) : Option (List String) :=
  match parts p with
  | [] => none
  | ["/"] => none
  | ps => some ps.dropLast

/-- A path below another one. An absolute path is not put below anything. -/
def join (base p : String) : String :=
  if isAbsolute p then p
  else if base = "" then p
  else if Text.endsWith "/" base then base ++ p
  else base ++ "/" ++ p

/-- The path that names lead along. A backslash within a name is read as a slash. -/
def ofNames (names : List String) : String :=
  Text.replace "\\" "/" (String.intercalate "/" names)

/-- The path of what stands below `base`. -/
def below (base : String) (names : List String) : String := names.foldl join base

/-- Whether nothing stands between two slashes that would lead anywhere. -/
def isIdle (piece : String) : Bool := piece = "" || piece = "."

/-- What is left between the slashes after `n` names. -/
def dropNames : Nat → List String → List String
  | 0, pieces => pieces.dropWhile isIdle
  | n + 1, pieces => dropNames n (pieces.dropWhile isIdle).tail

/-- The way from `base` to a path that starts with its parts, as the path writes it; empty where
both are one. -/
def relative? (base p : String) : Option String :=
  let start := parts base
  if start.isPrefixOf (parts p) then
    let pieces := (Text.splitOn '/' p)
    let opening := if isAbsolute p || pieces.head? = some "." then pieces.take 1 else []
    let rest := pieces.drop opening.length
    let rest := if start.isEmpty then rest else dropNames (start.length - opening.length) rest
    let rest := (rest.reverse.dropWhile isIdle).reverse
    if start.isEmpty ∧ isAbsolute p then some ("/" ++ String.intercalate "/" rest)
    else if start.isEmpty then some (String.intercalate "/" (opening ++ rest))
    else some (String.intercalate "/" rest)
  else none

/-- The last name of a path; a path that ends with two dots or has no names has none. -/
def fileName? (p : String) : Option String := (components p).getLast?.filter (· ≠ "..")

/-- The stem and the extension of a name, cut at its last dot. A dot that comes first cuts
nothing. -/
def stemAndExtension (name : String) : String × Option String :=
  if name = ".." then (name, none)
  else
    match Text.cutLast? '.' name with
    | some (stem, ext) => if stem = "" then (name, none) else (stem, some ext)
    | none => (name, none)

/-- The stem of a name. -/
def stem (name : String) : String := (stemAndExtension name).1

/-- The extension of a name. -/
def extension? (name : String) : Option String := (stemAndExtension name).2

/-! ## Cleaning -/

/-- One more component after those kept, the last one first. Two dots take a name back, are
dropped at the root, and stay otherwise. -/
def cleanStep (absolute : Bool) (kept : List String) (c : String) : List String :=
  if c = ".." then
    match kept with
    | k :: r => if k = ".." then c :: kept else r
    | [] => if absolute then [] else [c]
  else c :: kept

/-- The path without empty components, dots and names taken back. -/
def cleanComponents (p : String) : List String :=
  ((components p).foldl (cleanStep (isAbsolute p)) []).reverse

/-- The cleaned path, a dot if nothing is left of it, with slashes only. -/
def clean (p : String) : String :=
  let kept := String.intercalate "/" (cleanComponents p)
  let cleaned := if isAbsolute p then "/" ++ kept else if kept = "" then "." else kept
  Text.replace "\\" "/" cleaned

end Atlas.Path
