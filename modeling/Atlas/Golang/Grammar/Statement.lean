import Atlas.Golang.Grammar.Declaration

/-!
# The grammar of statements

Statements are read only to find where they end.
-/

namespace Atlas.Golang

open Phrase

/-! ## Simple statements -/

/-- A statement without blocks: an expression, values that are assigned or sent, or a count. Says
whether it is an expression alone. -/
def simpleStatement (inner : Level) (c : Context) : Phrase Bool := do
  let n ← expressions inner c
  let assignment := do
    sameLine c.lineEnds
    let _ ← signOf (":=" :: assignmentSigns)
    let _ ← expressions inner c
  let other := do
    sameLine c.lineEnds
    if (← maybe (signOf ["++", "--"])).isNone then
      let _ ← sign "<-"
      expression inner c
  if (← maybe assignment).isSome then return false
  else
    guard (n = 1)
    return (← maybe other).isNone

/-- A simple statement before a semicolon, if there is one, and then an expression. -/
def headed (inner : Level) : Phrase Unit := do
  let plain ← simpleStatement inner .head
  if (← maybe (sign ";")).isSome then expression inner .head
  else guard plain

/-! ## Statements with blocks -/

/-- A conditional. -/
def ifStatement (inner : Level) : Phrase Unit := do
  let _ ← keyword "if"
  headed inner
  block inner
  let _ ← maybe (do
    sameLine true
    let _ ← keyword "else"
    when fun t => t.isWord "if" || t.isSign "\x7b"
    inner.statement)

/-- The head of a loop over a range. -/
def rangeClause (inner : Level) : Phrase Unit := do
  let _ ← maybe (do
    let _ ← expressions inner .head
    signOf ["=", ":="])
  let _ ← keyword "range"
  expression inner .head

/-- The head of a loop in three parts. -/
def forClause (inner : Level) : Phrase Unit := do
  let _ ← maybe (simpleStatement inner .head)
  let _ ← sign ";"
  let _ ← maybe (expression inner .head)
  let _ ← sign ";"
  let _ ← maybe (simpleStatement inner .head)

/-- A loop. -/
def forStatement (inner : Level) : Phrase Unit := do
  let _ ← keyword "for"
  if !(← nextIs (·.isSign "\x7b")) then
    rangeClause inner <|> forClause inner <|> expression inner .head
  block inner

/-- The statements of a case. -/
def caseBody (inner : Level) : Phrase Unit := do
  if (← maybe inner.statement).isSome then
    let _ ← many (do let _ ← terminator; inner.statement)
    let _ ← maybe terminator

/-- The cases of a choice, where `p` reads what stands between `case` and its colon. -/
def cases (inner : Level) (p : Phrase Unit) : Phrase Unit := do
  let _ ← between "\x7b" "\x7d" (many (do
    if (← maybe (keyword "default")).isNone then
      let _ ← keyword "case"
      p
    let _ ← sign ":"
    caseBody inner))

/-- A choice by value or by type. -/
def switchStatement (inner : Level) : Phrase Unit := do
  let _ ← keyword "switch"
  let _ ← maybe (simpleStatement inner .head)
  let _ ← maybe (do
    let _ ← sign ";"
    maybe (simpleStatement inner .head))
  cases inner (do let _ ← commaSeparated (expressionOrType inner))

/-- A choice by communication. -/
def selectStatement (inner : Level) : Phrase Unit := do
  let _ ← keyword "select"
  cases inner (do let _ ← simpleStatement inner .inside)

/-! ## Statements -/

/-- A statement that starts with a reserved word. -/
def keywordStatement (inner : Level) (word : String) : Phrase Unit :=
  match word with
  | "const" => do let _ ← constantDecl inner
  | "var" => do let _ ← variableDecl inner
  | "type" => do let _ ← typeDecl inner
  | "return" => do
    let _ ← keyword "return"
    let _ ← maybe (do sameLine true; expressions inner .line)
  | "go" | "defer" => do
    let _ ← keyword word
    expression inner .line
  | "break" | "continue" => do
    let _ ← keyword word
    let _ ← maybe (do sameLine true; Phrase.word)
  | "goto" => do
    let _ ← keyword "goto"
    let _ ← Phrase.word
  | "fallthrough" => do let _ ← keyword "fallthrough"
  | "if" => ifStatement inner
  | "for" => forStatement inner
  | "switch" => switchStatement inner
  | "select" => selectStatement inner
  | _ => failure

/-- The words that start a statement. -/
def statementWords : List String :=
  ["const", "var", "type", "return", "go", "defer", "break", "continue", "goto", "fallthrough",
    "if", "for", "switch", "select"]

/-- A statement with a label, or a label alone. -/
def labeledStatement (inner : Level) : Phrase Unit := do
  let _ ← word
  sameLine true
  let _ ← sign ":"
  let _ ← maybe inner.statement

/-- A statement. -/
def statement (inner : Level) : Phrase Unit := do
  let t ← peek
  if t.kind == .word && statementWords.contains t.text then keywordStatement inner t.text
  else if t.isWord "case" || t.isWord "default" then failure
  else if t.isSign "\x7b" then block inner
  else if t.isSign ";" then
    let _ ← sign ";"
  else if t.kind == .word && (← peekSecond).isSign ":" then labeledStatement inner
  else
    let _ ← simpleStatement inner .line

/-! ## The grammar at a depth -/

/-- The phrases that may be nested to a depth. -/
def level : Nat → Level
  | 0 => .none
  | n + 1 =>
    let inner := level n
    ⟨typeExpr inner, expression inner, literal inner, statement inner⟩

end Atlas.Golang
