import Atlas.Golang.Grammar.Statement

/-!
# The grammar of files

A file is a list of declarations. Statements may stand between them, so that a part of a function is
a file as well.
-/

namespace Atlas.Golang

open Phrase

/-- A declaration with its documentation and the line on which it starts. -/
structure Documented where
  doc : String
  line : Nat
  declaration : Declaration

/-- A declaration, once its documentation is known. -/
def declaration (inner : Level) : Phrase (String → Declaration) := do
  let constant (p : Phrase Declaration) : Phrase (String → Declaration) := do
    let d ← p
    return fun _ => d
  let t ← peek
  if t.isWord "package" then constant packageClause
  else if t.isWord "import" then constant importDecl
  else if t.isWord "const" then constant (constantDecl inner)
  else if t.isWord "var" then constant (variableDecl inner)
  else if t.isWord "type" then typeDecl inner
  else if t.isWord "func" then
    constant (functionDecl inner <|> methodDecl inner <|> (do statement inner; return .statement))
  else constant (do statement inner; return .statement)

/-- The declarations of a file. -/
def file (inner : Level) : Phrase (List Documented) := do
  let items ← endedItems [] (declaration inner)
  when (·.kind == .ending)
  return documented (fun doc (p : Placed (String → Declaration)) =>
    ⟨doc, p.first, p.value doc⟩) items

/-- The declarations of a source, if it is a Go file. -/
def declarations? (s : Source) : Option (List Documented) := do
  let tokens ← tokens? s
  return (← file (level (tokens.length + 1)) tokens).1

end Atlas.Golang
