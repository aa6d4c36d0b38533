import Atlas.Golang.Phrase
import Atlas.Golang.TypeExpr

/-!
# The grammar of types

Types, expressions and statements stand inside one another. Each phrase of the grammar is defined
over a `Level`, the phrases that may stand inside it; the grammar at depth `n + 1` is made of these
definitions over the grammar at depth `n`. Something that stands inside a phrase starts after the
first token of it, so no depth beyond the number of tokens is needed.

The first of these phrases are those of types, parameters, fields and methods. After a name,
brackets hold the length of an array, which makes the name that of a field or of a parameter, or the
arguments of a generic type; what comes after the closing bracket tells them apart.
-/

namespace Atlas.Golang

/-! ## Levels -/

/-- Where an expression stands. -/
structure Context where
  /-- Whether the end of a line ends what the expression stands in. -/
  lineEnds : Bool
  /-- Whether a brace after a name opens a literal, as it does not in the head of a statement. -/
  literals : Bool
  deriving DecidableEq, Repr

/-- Between brackets. -/
def Context.inside : Context := ⟨false, true⟩

/-- In the head of a statement. -/
def Context.head : Context := ⟨false, false⟩

/-- In a statement or a declaration of its own. -/
def Context.line : Context := ⟨true, true⟩

/-- The phrases that may stand inside others. A type is told whether the end of a line ends what it
stands in. -/
structure Level where
  type : Bool → Phrase TypeExpr
  expression : Context → Phrase Unit
  literal : Phrase Unit
  statement : Phrase Unit

/-- The level at which nothing reads. -/
def Level.none : Level := ⟨fun _ => failure, fun _ => failure, failure, failure⟩

/-- The words that open a type that is no name. -/
def typeWords : List String := ["map", "chan", "func", "struct", "interface"]

/-- Whether a token may be a name where a type may stand. -/
def isTypeName (t : Token) : Bool := t.kind == .word && !typeWords.contains t.text

/-- Whether a token opens a type. -/
def opensType (t : Token) : Bool :=
  t.kind == .word || (t.kind == .sign && ["*", "[", "(", "<-", "~"].contains t.text)

open Phrase

/-! ## Names and brackets -/

/-- What follows the bracket that closes as many as are open. -/
def afterBracket : Nat → List Token → List Token
  | _, [] => []
  | depth, t :: ts =>
    if t.isSign "[" then afterBracket (depth + 1) ts
    else if t.isSign "]" then if depth ≤ 1 then ts else afterBracket (depth - 1) ts
    else afterBracket depth ts

/-- Whether these tokens open a type after a name, so that the name is that of a field or of a
parameter. -/
def opensTypeAfterName (lineEnds : Bool) : List Token → Bool
  | t :: ts =>
    let open? (t : Token) : Bool := opensType t && !(lineEnds && t.lineBreak)
    if t.isSign "[" then open? t && (afterBracket 0 (t :: ts)).head?.any open?
    else open? t
  | [] => false

/-- The comments before the next token, in place of types. -/
def notes : Phrase (List TypeExpr) := do return (← peek).comments.map fun c => .verbatim c.text

/-- The first of the comments before the next token, or the type that follows them. -/
def notedType (inner : Level) (lineEnds : Bool) : Phrase TypeExpr := do
  let ns ← notes
  let t ← inner.type lineEnds
  return ns.head?.getD t

/-! ## Types with arguments -/

/-- A type, or types of which a value may have any. -/
def typeElement (inner : Level) (lineEnds : Bool) : Phrase TypeExpr := do
  let (ts, text) ← withText do
    let t ← inner.type lineEnds
    let ts ← many (do sameLine lineEnds; let _ ← sign "|"; inner.type lineEnds)
    return t :: ts
  match ts with
  | [t] => return t
  | _ => return .verbatim text

/-- The arguments of a generic type, with the comments between them. -/
def typeArguments (inner : Level) : Phrase (List TypeExpr) := do
  let item := do
    let before ← notes
    let t ← typeElement inner false
    return before ++ t :: (← notes)
  let _ ← sign "["
  let items ← commaSeparated item
  let after ← if (← maybe (sign ",")).isSome then notes else pure []
  let _ ← sign "]"
  return items.flatten ++ after

/-- A type with a name, perhaps from a package and perhaps with arguments. -/
def namedType (inner : Level) (lineEnds : Bool) : Phrase TypeExpr := do
  let name ← token isTypeName
  let qualifier ← maybe (do sameLine lineEnds; let _ ← sign "."; word)
  let base : TypeExpr := match qualifier with
    | some n => .qualified name.text n.text
    | none => .name name.text
  match ← maybe (do sameLine lineEnds; typeArguments inner) with
  | some arguments => return .generic base arguments
  | none => return base

/-! ## Parameters -/

/-- What follows the names, with commas between, at the front of the tokens, and how many names
these are. -/
def afterNames : Nat → List Token → Nat × List Token
  | n, name :: comma :: next :: ts =>
    if isTypeName name then
      if comma.isSign "," && isTypeName next then afterNames (n + 1) (next :: ts)
      else (n + 1, comma :: next :: ts)
    else (n, name :: comma :: next :: ts)
  | n, name :: ts => if isTypeName name then (n + 1, ts) else (n, name :: ts)
  | n, [] => (n, [])

/-- Parameters of one type. Names with commas between share the type that follows them; if none
follows, the first of them is a type itself. -/
def parameter (inner : Level) : Phrase Parameter := do
  let (names, after) := afterNames 0 (← get)
  let variadicNext := after.head?.any (·.isSign "...")
  if names = 1 && variadicNext then
    let name ← word
    let _ ← sign "..."
    return .mk [name.text] true (← inner.type false)
  else if names = 0 && variadicNext then
    let _ ← sign "..."
    return .mk [] true (← inner.type false)
  else if 0 < names && !variadicNext && opensTypeAfterName false after then
    let ns ← commaSeparated word
    return .mk (ns.map (·.text)) false (← inner.type false)
  else return .mk [] false (← inner.type false)

/-- Parameters between parentheses. -/
def parameters (inner : Level) : Phrase (List Parameter) :=
  between "(" ")" (commaList (parameter inner))

/-- The results of a function, if it has any. -/
def results (inner : Level) (lineEnds : Bool) : Phrase (List Parameter) := do
  let t ← peek
  if !opensType t || (lineEnds && t.lineBreak) then return []
  else if t.isSign "(" then parameters inner
  else return [.mk [] false (← inner.type lineEnds)]

/-! ## Structs and interfaces -/

/-- The tag of a field, if it has one. -/
def fieldTag (lineEnds : Bool) : Phrase (Option String) := do
  let tag ← maybe (do sameLine lineEnds; string)
  return tag.map fun t => Text.trimWhile (· == '\x60') t.text

/-- A field, whose documentation is added later. -/
def field (inner : Level) : Phrase (String → Field) := do
  let ts ← get
  let second := ts.tail.head?
  let isNamed := ts.head?.any (·.kind == .word) &&
    (second.any (fun t => t.isSign "," && !t.lineBreak) || opensTypeAfterName true ts.tail)
  if isNamed then
    let names ← commaSeparated word
    let type ← inner.type true
    let tag ← fieldTag true
    return .named (names.map (·.text)) type tag
  else
    let pointer ← maybe (sign "*")
    let type ← namedType inner true
    let tag ← fieldTag true
    return .embedded pointer.isSome type tag

/-- The fields of a struct. -/
def fields (inner : Level) : Phrase (List Field) := do
  let items ← between "\x7b" "\x7d" (separatedItems [] (field inner))
  return documented (fun doc (p : Placed (String → Field)) => p.value doc) items

/-- A method of an interface, whose documentation and line are added later; nothing for a type that
is embedded. -/
def interfaceElement (inner : Level) : Phrase (Option (String → Nat → Method)) := do
  let t ← peek
  let u ← peekSecond
  if isTypeName t && u.isSign "(" && !u.lineBreak then
    let name ← word
    let ps ← parameters inner
    let rs ← results inner true
    return some fun doc line => .mk name.text doc line ps rs
  else
    let _ ← typeElement inner true
    return none

/-- The methods of an interface. Comments before the opening brace count as above the first. -/
def methods (inner : Level) : Phrase (List Method) := do
  let before := (← peek).comments
  let items ← between "\x7b" "\x7d" (separatedItems before (interfaceElement inner))
  return (documented (fun doc (p : Placed (Option (String → Nat → Method))) =>
    p.value.map fun f => f doc p.first) items).filterMap id

/-! ## Types -/

/-- A channel whose element follows. An arrow after `chan` belongs to another `chan` that follows
it, as the arrow of a channel that is received from. -/
def channel (inner : Level) (lineEnds : Bool) : Phrase TypeExpr := do
  let _ ← keyword "chan"
  let direction (arrow : Token) : Direction := if arrow.comments.isEmpty then .send else .both
  let arrows ← many (do
    let arrow ← sign "<-"
    let _ ← keyword "chan"
    return direction arrow)
  match ← maybe (sign "<-") with
  | some arrow =>
    return (arrows ++ [direction arrow]).foldr TypeExpr.channel (← inner.type lineEnds)
  | none =>
    let element ← inner.type lineEnds
    return .channel .both (arrows.foldr (fun _ t => .channel .receive t) element)

/-- A type that starts with a reserved word. -/
def wordType (inner : Level) (lineEnds : Bool) (word : String) : Phrase TypeExpr :=
  match word with
  | "map" => do
    let _ ← keyword "map"
    let key ← between "[" "]" (inner.type false)
    return .map key (← inner.type lineEnds)
  | "chan" => channel inner lineEnds
  | "func" => do
    let _ ← keyword "func"
    let ps ← parameters inner
    return .function ps (← results inner lineEnds)
  | "struct" => do
    let _ ← keyword "struct"
    return .struct (← fields inner)
  | "interface" => do
    let _ ← keyword "interface"
    return .interface (← methods inner)
  | _ => failure

/-- A type that starts with a sign. -/
def signType (inner : Level) (lineEnds : Bool) (s : String) : Phrase TypeExpr :=
  match s with
  | "*" => do
    let _ ← sign "*"
    return .pointer (← notedType inner lineEnds)
  | "(" => return .parenthesized (← between "(" ")" (notedType inner false))
  | "[" => do
    let _ ← between "[" "]" (maybe (inner.expression .inside))
    return .list (← inner.type lineEnds)
  | "<-" => do
    let _ ← sign "<-"
    let _ ← keyword "chan"
    return .channel .receive (← inner.type lineEnds)
  | "~" => do
    let (_, text) ← withText (do let _ ← sign "~"; inner.type lineEnds)
    return .verbatim text
  | _ => failure

/-- A type. -/
def typeExpr (inner : Level) (lineEnds : Bool) : Phrase TypeExpr := do
  let t ← peek
  if isTypeName t then namedType inner lineEnds
  else if t.kind == .word then wordType inner lineEnds t.text
  else if t.kind == .sign then signType inner lineEnds t.text
  else failure

end Atlas.Golang
