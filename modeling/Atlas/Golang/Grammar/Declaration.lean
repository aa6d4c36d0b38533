import Atlas.Golang.Grammar.Expression

/-!
# The grammar of declarations

Packages, imports, constants, variables, types, functions and methods.
-/

namespace Atlas.Golang

open Phrase

/-- Constants or variables of one type. -/
structure ValueSpec where
  /-- The names with their lines. -/
  names : List (String × Nat)
  type : Option TypeExpr

/-- A type with a name. -/
structure TypeSpec where
  name : String
  doc : String
  line : Nat
  type : TypeExpr

/-- A function or a method without its receiver. -/
structure FunctionDecl where
  name : String
  parameters : List Parameter
  results : List Parameter

/-- A declaration, or a statement between declarations. -/
inductive Declaration where
  | package (name : String)
  | imports (paths : List String)
  | constants (specs : List ValueSpec)
  | vars (specs : List ValueSpec)
  | types (specs : List TypeSpec)
  | function (f : FunctionDecl)
  | method (receiver : List Parameter) (f : FunctionDecl)
  | statement

/-- Items of one declaration: a single one, or several between parentheses. The comments before the
parentheses count as above the first of several. -/
def grouped {α : Type} (p : Phrase α) : Phrase (List (Placed α)) := do
  let t ← peek
  if t.isSign "(" then between "(" ")" (endedItems t.comments p)
  else return [← placed [] p]

/-! ## Values -/

/-- A token with its line. -/
def withLine (t : Token) : String × Nat := (t.text, t.first)

/-- Variables of one type, with or without values. -/
def variableSpec (inner : Level) : Phrase ValueSpec := do
  let names ← commaSeparated word
  let values := do
    let _ ← sign "="
    let _ ← expressions inner .line
  match ← maybe values with
  | some _ => return ⟨names.map withLine, none⟩
  | none =>
    let type ← inner.type true
    let _ ← maybe (do sameLine true; values)
    return ⟨names.map withLine, some type⟩

/-- Constants of one type. Only those with values may have a type. The commas between the names
count as names. -/
def constantSpec (inner : Level) : Phrase ValueSpec := do
  let name ← word
  let more ← many (do
    sameLine true
    let comma ← sign ","
    return [comma, ← word])
  let values := do
    sameLine true
    let type ← if ← nextIs (·.isSign "=") then pure none else some <$> inner.type false
    let _ ← sign "="
    let _ ← expressions inner .line
    return type
  let type ← maybe values
  return ⟨(name :: more.flatten).map withLine, type.join⟩

/-- Constants. -/
def constantDecl (inner : Level) : Phrase Declaration := do
  let _ ← keyword "const"
  return .constants ((← grouped (constantSpec inner)).map (·.value))

/-- Variables. -/
def variableDecl (inner : Level) : Phrase Declaration := do
  let _ ← keyword "var"
  return .vars ((← grouped (variableSpec inner)).map (·.value))

/-! ## Types -/

/-- The parameters of a generic type or function. -/
def typeParameters (inner : Level) : Phrase Unit := do
  let _ ← sign "["
  let _ ← commaSeparated (do
    let _ ← commaSeparated word
    typeElement inner false)
  let _ ← maybe (sign ",")
  let _ ← sign "]"

/-- A type with a name, whose documentation and line are added later; nothing for a name that is
given to another type. -/
def typeSpec (inner : Level) : Phrase (Option (String → Nat → TypeSpec)) := do
  let name ← word
  let spec (type : TypeExpr) : Option (String → Nat → TypeSpec) :=
    some fun doc line => ⟨name.text, doc, line, type⟩
  let synonym := do
    let _ ← sign "="
    let _ ← inner.type true
    return none
  let direct := spec <$> inner.type true
  let parameterized := do
    typeParameters inner
    synonym <|> direct
  synonym <|> direct <|> parameterized

/-- Types, whose own documentation comes before that of the declaration. -/
def typeDecl (inner : Level) : Phrase (String → Declaration) := do
  let _ ← keyword "type"
  let items ← grouped (typeSpec inner)
  return fun doc =>
    let specs := documented (fun own (p : Placed (Option (String → Nat → TypeSpec))) =>
      p.value.map fun f => f (if own = "" then doc else own) p.first) items
    .types (specs.filterMap id)

/-! ## Packages and imports -/

/-- The package of a file. -/
def packageClause : Phrase Declaration := do
  let _ ← keyword "package"
  return .package (← word).text

/-- A path to import, perhaps under another name. -/
def importSpec : Phrase String := do
  let _ ← maybe (sign "." <|> word)
  return Text.trimWhile (fun c => c == '"' || c == '\x60') (← string).text

/-- Imports. -/
def importDecl : Phrase Declaration := do
  let _ ← keyword "import"
  if ← nextIs (·.isSign "(") then
    let items ← between "(" ")" (separatedItems [] importSpec)
    return .imports (items.map (·.value))
  else return .imports [← importSpec]

/-! ## Functions -/

/-- The body of a function, if it has one. -/
def body (inner : Level) : Phrase Unit := do
  let _ ← maybe (do sameLine true; block inner)

/-- A function. -/
def functionDecl (inner : Level) : Phrase Declaration := do
  let _ ← keyword "func"
  let name ← word
  let _ ← maybe (typeParameters inner)
  let ps ← parameters inner
  let rs ← results inner true
  body inner
  return .function ⟨name.text, ps, rs⟩

/-- A method. -/
def methodDecl (inner : Level) : Phrase Declaration := do
  let _ ← keyword "func"
  let receiver ← parameters inner
  let name ← word
  let _ ← maybe (typeParameters inner)
  let ps ← parameters inner
  let rs ← results inner true
  body inner
  return .method receiver ⟨name.text, ps, rs⟩

end Atlas.Golang
