import Atlas.Golang.Grammar.Type

/-!
# The grammar of expressions

Expressions are read only to find where they end, so they have no meaning here and operators no
precedence.
-/

namespace Atlas.Golang

open Phrase

/-- The signs that may stand before an operand. -/
def prefixSigns : List String := ["+", "-", "!", "^", "*", "&", "<-"]

/-- The signs that may stand between two operands. -/
def binarySigns : List String :=
  ["*", "/", "%", "<<", ">>", "&", "&^", "+", "-", "|", "^", "==", "!=", "<", "<=", ">", ">=", "&&",
    "||"]

/-- The signs that assign. -/
def assignmentSigns : List String :=
  ["=", "*=", "/=", "%=", "<<=", ">>=", "&=", "&^=", "+=", "-=", "|=", "^="]

/-- What an operand may be besides a value. -/
inductive Operand where
  /-- A name, which may be that of a type. -/
  | name
  /-- A built-in function that takes a type. -/
  | allocator
  /-- A name from a package. -/
  | qualified
  /-- A name with arguments. -/
  | generic
  | value
  deriving DecidableEq, Repr

/-- Whether an operand may be the type of a literal. -/
def Operand.isType : Operand → Bool
  | .name | .qualified | .generic => true
  | .allocator | .value => false

/-- An expression or a type. -/
def expressionOrType (inner : Level) : Phrase Unit :=
  inner.expression .inside <|> (do let _ ← inner.type false)

/-- Statements between braces. -/
def block (inner : Level) : Phrase Unit := do
  let _ ← sign "\x7b"
  if (← maybe inner.statement).isSome then
    let _ ← many (do let _ ← terminator; inner.statement)
    let _ ← maybe terminator
  let _ ← sign "\x7d"

/-- The elements of a literal between braces, each perhaps with a key. -/
def literal (inner : Level) : Phrase Unit := do
  let element : Phrase Unit := do
    if ← nextIs (·.isSign "\x7b") then inner.literal else inner.expression .inside
  let _ ← between "\x7b" "\x7d" (commaList do
    element
    let _ ← maybe (do let _ ← sign ":"; element))

/-- The value that a type converts. -/
def conversion (inner : Level) : Phrase Unit := do
  let _ ← between "(" ")" (do
    inner.expression .inside
    let _ ← maybe (sign ","))

/-- A type with a literal of it or with a value that it converts. -/
def typedValue (inner : Level) : Phrase Unit := do
  match ← typeExpr inner false with
  | .map .. | .struct .. | .list .. => literal inner <|> conversion inner
  | _ => conversion inner

/-- A function with its body, or a type of functions with a value that it converts. -/
def functionValue (inner : Level) : Phrase Unit :=
  (do
    let _ ← keyword "func"
    let _ ← parameters inner
    let _ ← results inner false
    block inner) <|>
  typedValue inner

/-- What starts with a bracket: a literal of an array, whose length may be left to the literal, or a
type with a value. -/
def bracketValue (inner : Level) : Phrase Unit :=
  (do
    let _ ← sign "["
    let _ ← sign "..."
    let _ ← sign "]"
    let _ ← inner.type false
    literal inner) <|>
  typedValue inner

/-- An operand without what follows it. -/
def operand (inner : Level) : Phrase Operand := do
  let t ← peek
  match t.kind with
  | .number | .text | .rune =>
    let _ ← token fun _ => true
    return .value
  | .word =>
    if t.text = "func" then functionValue inner; return .value
    else if typeWords.contains t.text then typedValue inner; return .value
    else
      let _ ← word
      return if t.text = "new" ∨ t.text = "make" then .allocator else .name
  | .sign =>
    if t.isSign "(" then between "(" ")" (expressionOrType inner)
    else bracketValue inner
    return .value
  | .ending => failure

/-- What brackets after an operand hold: an index, bounds, or types. -/
def bracketed (inner : Level) : Phrase Operand := do
  let bound := maybe (inner.expression .inside)
  let _ ← sign "["
  let first ← maybe (expressionOrType inner)
  if (← maybe (sign ":")).isSome then
    let _ ← bound
    let _ ← maybe (do let _ ← sign ":"; inner.expression .inside)
    let _ ← sign "]"
    return .value
  else
    guard first.isSome
    let _ ← many (do let _ ← sign ","; expressionOrType inner)
    let _ ← maybe (sign ",")
    let _ ← sign "]"
    return .generic

/-- The arguments of a call. The first one of a built-in function may be a type. -/
def callArguments (inner : Level) (o : Operand) : Phrase Unit := do
  let argument := do
    inner.expression .inside
    let _ ← maybe (sign "...")
  let _ ← sign "("
  let first := if o = .allocator then argument <|> expressionOrType inner else argument
  if (← maybe first).isSome then
    let _ ← many (do let _ ← sign ","; argument)
    let _ ← maybe (sign ",")
  let _ ← sign ")"

/-- What follows a dot: a name, or a type between parentheses. -/
def selected (inner : Level) (o : Operand) : Phrase Operand := do
  let _ ← sign "."
  if (← maybe word).isSome then return if o = .name then .qualified else .value
  else
    between "(" ")" (do
      if (← maybe (keyword "type")).isNone then
        let _ ← inner.type false)
    return .value

/-- One thing that follows an operand, and what operand it makes. -/
def operandSuffix (inner : Level) (c : Context) (o : Operand) : Phrase Operand := do
  sameLine c.lineEnds
  let t ← peek
  if t.isSign "." then selected inner o
  else if t.isSign "[" then
    let brackets ← bracketed inner
    return if brackets = .generic ∧ (o = .name ∨ o = .qualified) then .generic else .value
  else if t.isSign "(" then callArguments inner o; return .value
  else if t.isSign "\x7b" && c.literals && o.isType then literal inner; return .value
  else failure

/-- An operand with what stands before and after it. -/
def unary (inner : Level) (c : Context) : Phrase Unit := do
  let _ ← many (signOf prefixSigns)
  let _ ← iterate (operandSuffix inner c) (← operand inner)

/-- An expression. -/
def expression (inner : Level) (c : Context) : Phrase Unit := do
  unary inner c
  let _ ← many (do sameLine c.lineEnds; let _ ← signOf binarySigns; unary inner c)

/-- Expressions with commas between them. -/
def expressions (inner : Level) (c : Context) : Phrase Nat := do
  expression inner c
  let more ← many (do sameLine c.lineEnds; let _ ← sign ","; expression inner c)
  return 1 + more.length

end Atlas.Golang
