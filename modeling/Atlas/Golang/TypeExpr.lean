import Atlas.Golang.Token

/-!
# Go types

Types as they are written, with the parameters of functions, the fields of structs and the methods
of interfaces, and the one text that stands for each (`TypeExpr.text`): lengths of arrays and bodies
of structs and interfaces are left out of it.
-/

namespace Atlas.Golang

/-- Which way the values of a channel go. -/
inductive Direction where
  | both
  | send
  | receive
  deriving DecidableEq, Repr, Inhabited

mutual

/-- A type. -/
inductive TypeExpr where
  | name (name : String)
  | qualified (package name : String)
  | generic (base : TypeExpr) (arguments : List TypeExpr)
  | pointer (target : TypeExpr)
  /-- A slice or an array. -/
  | list (element : TypeExpr)
  | map (key value : TypeExpr)
  | channel (direction : Direction) (element : TypeExpr)
  | function (parameters results : List Parameter)
  | struct (fields : List Field)
  | interface (methods : List Method)
  | parenthesized (inner : TypeExpr)
  /-- A union of types, an approximation, or a comment that stands in place of a type. -/
  | verbatim (text : String)

/-- Parameters, or results, of one type. -/
inductive Parameter where
  | mk (names : List String) (variadic : Bool) (type : TypeExpr)

/-- Fields of one type. A field that is embedded has no name of its own. -/
inductive Field where
  | named (names : List String) (type : TypeExpr) (tag : Option String) (doc : String)
  | embedded (pointer : Bool) (type : TypeExpr) (tag : Option String) (doc : String)

/-- A method of an interface. -/
inductive Method where
  | mk (name doc : String) (line : Nat) (parameters results : List Parameter)

end

instance : Inhabited TypeExpr := ⟨.name ""⟩
instance : Inhabited Parameter := ⟨.mk [] false default⟩
instance : Inhabited Field := ⟨.named [] default none ""⟩
instance : Inhabited Method := ⟨.mk "" "" 0 [] []⟩

/-- The text of parameters and results: those of a function with no results have no second part. -/
def signatureText (parameters results : List String) : String :=
  let results := ", ".intercalate results
  let parameters := "(" ++ ", ".intercalate parameters ++ ")"
  if results = "" then parameters else parameters ++ " (" ++ results ++ ")"

mutual

/-- The text of a type. -/
def TypeExpr.text : TypeExpr → String
  | .name n => n
  | .qualified p n => p ++ "." ++ n
  | .generic base arguments => base.text ++ "[" ++ ", ".intercalate (typeTexts arguments) ++ "]"
  | .pointer target => "*" ++ target.text
  | .list element => "[]" ++ element.text
  | .map key value => "map[" ++ key.text ++ "]" ++ value.text
  | .channel .both element => "chan " ++ element.text
  | .channel .send element => "chan<- " ++ element.text
  | .channel .receive element => "<-chan " ++ element.text
  | .function parameters results =>
    "func" ++ signatureText (parameterTexts parameters) (parameterTexts results)
  | .struct _ => "struct\x7b\x7d"
  | .interface _ => "interface\x7b\x7d"
  | .parenthesized inner => inner.text
  | .verbatim text => text

/-- The texts of types. -/
def typeTexts : List TypeExpr → List String
  | [] => []
  | t :: ts => t.text :: typeTexts ts

/-- The text of parameters of one type. -/
def Parameter.text : Parameter → String
  | .mk names variadic type =>
    let type := if variadic then "..." ++ type.text else type.text
    if names.isEmpty then type else ", ".intercalate names ++ " " ++ type

/-- The texts of parameters. -/
def parameterTexts : List Parameter → List String
  | [] => []
  | p :: ps => p.text :: parameterTexts ps

end

/-- The name of the type that a receiver's type refers to, whatever stands around it. -/
def TypeExpr.baseName? : TypeExpr → Option String
  | .name n => some n
  | .pointer target => target.baseName?
  | .parenthesized inner => inner.baseName?
  | .generic base _ => base.baseName?
  | _ => none

/-- The name of the type that methods with this receiver belong to. -/
def receiverName? (receiver : List Parameter) : Option String :=
  (receiver.findSome? fun
    | .mk _ false type => some type
    | _ => none).bind TypeExpr.baseName?

theorem typeTexts_eq_map (ts : List TypeExpr) : typeTexts ts = ts.map TypeExpr.text := by
  induction ts with
  | nil => rfl
  | cons t ts ih => simp [typeTexts, ih]

theorem parameterTexts_eq_map (ps : List Parameter) :
    parameterTexts ps = ps.map Parameter.text := by
  induction ps with
  | nil => rfl
  | cons p ps ih => simp [parameterTexts, ih]

end Atlas.Golang
