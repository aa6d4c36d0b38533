import Atlas.Docker.Project
import Atlas.Json.Reader
import Atlas.Text
import Atlas.Chars.Casing

/-!
# Reading Dockerfiles

A Dockerfile is read by logical lines (`logicalLines`), each of which may change the record
(`Dockerfile.apply`). A line starts with the word of an instruction in any case; a line with no
known word changes nothing, and a step before the first stage belongs to none.
-/

namespace Atlas.Docker

/-! ## Logical lines -/

/-- Joins each line that ends in a backslash with the line after it. Comments count for nothing,
and neither do empty lines unless they end a line that goes on. -/
def joinLines (pending : List Char) : List (List Char) → List (List Char)
  | [] => if Chars.trim pending = [] then [] else [Chars.trim pending]
  | raw :: rest =>
    let line := Chars.trim raw
    if line.head? = some '#' ∨ (line = [] ∧ pending = []) then joinLines pending rest
    else match Chars.dropSuffix? ['\\'] line with
      | some head => joinLines (pending ++ Chars.trimEnd head ++ [' ']) rest
      | none =>
        let joined := Chars.trim (pending ++ line)
        if joined = [] then joinLines [] rest else joined :: joinLines [] rest

/-- The logical lines of a text. -/
def logicalLines (s : List Char) : List (List Char) := joinLines [] (Chars.lines s)

/-! ## Words -/

/-- The texts of a JSON list of texts. -/
def jsonWords? (s : List Char) : Option (List String) := do
  match ← Json.read? (String.ofList s) with
  | .list items => items.mapM fun
    | .text t => some t
    | _ => none
  | _ => none

/-- The words of a list, which may be written as a JSON list or with blanks between. -/
def listOrWords (s : List Char) : List String :=
  let s := Chars.trim s
  let words := (Chars.words s).map String.ofList
  if s.head? = some '[' then (jsonWords? s).getD words else words

/-- Puts a character in front of the first of some words. -/
def consWord (c : Char) : List (List Char) → List (List Char)
  | [] => [[c]]
  | w :: ws => (c :: w) :: ws

/-- The words between blanks that are not in double quotes, without the quotes. The first word is
the one that the text starts in, and may be empty, as may all others. -/
def splitQuoted (quoted : Bool) : List Char → List (List Char)
  | [] => [[]]
  | c :: r =>
    if c = '"' then splitQuoted (!quoted) r
    else if Chars.isBlank c ∧ !quoted then [] :: splitQuoted quoted r
    else consWord c (splitQuoted quoted r)

/-- The words between blanks that are not in double quotes, without the quotes. -/
def quotedWords (s : List Char) : List (List Char) :=
  (splitQuoted false s).filter (! ·.isEmpty)

/-- A text without the double quotes around it. -/
def unquote (s : List Char) : List Char :=
  ((Chars.dropPrefix? ['"'] s).bind (Chars.dropSuffix? ['"'])).getD s

/-! ## Instructions -/

/-- Whether two texts differ in case only. -/
def sameWord (s t : List Char) : Bool := s.map Chars.fold == t.map Chars.fold

/-- What follows the word of an instruction and blanks. -/
def argumentsOf? (word line : List Char) : Option (List Char) :=
  let (w, r) := (line.take word.length, line.drop word.length)
  if sameWord word w ∧ r.head?.any Chars.isBlank ∧ Chars.trimStart r ≠ [] then
    some (Chars.trimStart r)
  else none

/-- An instruction that is understood. -/
inductive Instruction where
  | from
  | run
  | copy
  | add
  | env
  | expose
  | volume
  | cmd
  | entrypoint
  deriving DecidableEq, Repr

namespace Instruction

/-- All instructions. -/
def all : List Instruction := [.from, .run, .copy, .add, .env, .expose, .volume, .cmd, .entrypoint]

/-- The word of an instruction. -/
def word : Instruction → String
  | .from => "FROM"
  | .run => "RUN"
  | .copy => "COPY"
  | .add => "ADD"
  | .env => "ENV"
  | .expose => "EXPOSE"
  | .volume => "VOLUME"
  | .cmd => "CMD"
  | .entrypoint => "ENTRYPOINT"

/-- The instruction of a line, and its arguments. -/
def ofLine? (line : List Char) : Option (Instruction × List Char) :=
  all.findSome? fun i => (argumentsOf? i.word.toList line).map fun args => (i, args)

end Instruction

/-- The words of a `FROM` line without the platform. -/
def withoutPlatform : List (List Char) → List (List Char)
  | w :: image :: r =>
    let mark := "--platform=".toList
    if mark.length < w.length ∧ sameWord mark (w.take mark.length) then image :: r
    else w :: image :: r
  | ws => ws

/-- The image that a `FROM` line names, and the name it gives to its stage. -/
def fromParts? (args : List Char) : Option (String × Option String) :=
  match withoutPlatform (Chars.words args) with
  | [] => none
  | [image] => some (String.ofList image, none)
  | [image, _] => some (String.ofList image, none)
  | image :: as :: name :: _ =>
    some (String.ofList image, if sameWord "AS".toList as then some (String.ofList name) else none)

/-- A command from its text. Written as a JSON list of texts it has arguments too. -/
def Command.read (kind : String) (text : List Char) : Command :=
  let text := Chars.trim text
  { kind
    command := String.ofList text
    args := if text.head? = some '[' then (jsonWords? text).getD [] else [] }

/-- The variables of an `ENV` line: pairs with equals signs, or one key and its value. -/
def envVariables (args : List Char) : List Variable :=
  let body := Chars.trim args
  let first := body.takeWhile fun c => !Chars.isBlank c
  if first.contains '=' then
    (quotedWords body).filterMap fun w =>
      (Chars.cut? ['='] w).map fun (k, v) => ⟨String.ofList k, String.ofList v⟩
  else
    [⟨String.ofList first, String.ofList (unquote (Chars.trim (body.drop first.length)))⟩]

namespace Dockerfile

/-- The file with a new stage. The first stage's image is the base image of the file. -/
def openStage (f : Dockerfile) (base : String) (name : Option String) : Dockerfile :=
  { f with
    baseImage := if f.baseImage = "" then base else f.baseImage
    stages := f.stages ++ [⟨f.stages.length, name, base, []⟩] }

/-- Adds a step to the last of some stages. -/
def addToLast (step : Step) : List Stage → List Stage
  | [] => []
  | [s] => [{ s with steps := s.steps ++ [step] }]
  | s :: ss => s :: addToLast step ss

/-- The file with one more step in its last stage. -/
def addStep (f : Dockerfile) (i : Instruction) (args : List Char) : Dockerfile :=
  { f with stages := addToLast ⟨i.word, String.ofList (Chars.trim args)⟩ f.stages }

/-- The file after an instruction. -/
def run (f : Dockerfile) (i : Instruction) (args : List Char) : Dockerfile :=
  match i with
  | .from =>
    match fromParts? args with
    | some (base, name) => f.openStage base name
    | none => f
  | .run | .copy | .add => f.addStep i args
  | .env => { f with environment := f.environment ++ envVariables args }
  | .expose =>
    { f with exposedPorts := f.exposedPorts ++ (Chars.words args).map String.ofList }
  | .volume => { f with volumes := f.volumes ++ listOrWords args }
  | .cmd | .entrypoint => { f with commands := f.commands ++ [Command.read i.word args] }

/-- The file after a logical line. -/
def apply (f : Dockerfile) (line : List Char) : Dockerfile :=
  match Instruction.ofLine? line with
  | some (i, args) => f.run i args
  | none => f

/-- The record of a text. -/
def read (path text : String) : Dockerfile := (logicalLines text.toList).foldl apply { path }

end Dockerfile

end Atlas.Docker
