import Atlas.Golang.Token

/-!
# Phrases

A phrase of the language reads tokens from the front of a list and says what they mean, or does not
read at all. Phrases are put together by `do`, by choice and by repetition. The end of the text is
never passed over.
-/

namespace Atlas.Golang

/-- A phrase with a meaning. -/
abbrev Phrase (α : Type) := StateT (List Token) Option α

namespace Phrase

/-- The next token, which is not passed over. -/
def peek : Phrase Token := do
  match ← get with
  | t :: _ => return t
  | [] => failure

/-- The token after the next one. -/
def peekSecond : Phrase Token := do
  match ← get with
  | _ :: t :: _ => return t
  | _ => failure

/-- One token that satisfies `p`. -/
def token (p : Token → Bool) : Phrase Token := do
  match ← get with
  | t :: ts => if t.kind != .ending && p t then set ts; return t else failure
  | [] => failure

/-- A sign. -/
def sign (s : String) : Phrase Token := token (·.isSign s)

/-- One of some signs. -/
def signOf (ss : List String) : Phrase Token := token fun t => t.kind == .sign && ss.contains t.text

/-- A word that is reserved where it stands. -/
def keyword (s : String) : Phrase Token := token (·.isWord s)

/-- Any word. A word that is reserved elsewhere may be a name here. -/
def word : Phrase Token := token (·.kind == .word)

/-- A string. -/
def string : Phrase Token := token (·.kind == .text)

/-- Goes on only if the next token satisfies `p`. -/
def when (p : Token → Bool) : Phrase Unit := do guard (p (← peek))

/-- Whether the next token satisfies `p`. -/
def nextIs (p : Token → Bool) : Phrase Bool := do return p (← peek)

/-- Goes on only if no line ends here, where the end of a line would end the phrase. -/
def sameLine (lineEnds : Bool) : Phrase Unit := when fun t => !(lineEnds && t.lineBreak)

/-- A phrase, if it reads. -/
def maybe {α : Type} (p : Phrase α) : Phrase (Option α) := some <$> p <|> pure none

/-- Takes steps as long as they read, at most `n`. -/
def steps {σ : Type} (step : σ → Phrase σ) : Nat → σ → Phrase σ
  | 0, s => pure s
  | n + 1, s => do
    match ← maybe (step s) with
    | some s => steps step n s
    | none => pure s

/-- Takes steps as long as they read. -/
def iterate {σ : Type} (step : σ → Phrase σ) (s : σ) : Phrase σ := do
  steps step (← get).length s

/-- A phrase as often as it reads. -/
def many {α : Type} (p : Phrase α) : Phrase (List α) :=
  List.reverse <$> iterate (fun as => (· :: as) <$> p) []

/-- A phrase once or more, with commas between. -/
def commaSeparated {α : Type} (p : Phrase α) : Phrase (List α) := do
  let a ← p
  return a :: (← many (do let _ ← sign ","; p))

/-- A phrase any number of times, with commas between, and perhaps one more at the end. -/
def commaList {α : Type} (p : Phrase α) : Phrase (List α) := do
  let as ← maybe (commaSeparated p)
  let _ ← maybe (sign ",")
  return as.getD []

/-- A phrase between two signs. -/
def between {α : Type} (opening closing : String) (p : Phrase α) : Phrase α := do
  let _ ← sign opening
  let a ← p
  let _ ← sign closing
  return a

/-- A phrase with its text. -/
def withText {α : Type} (p : Phrase α) : Phrase (α × String) := do
  let before ← get
  let a ← p
  let after ← get
  return (a, Token.span (before.take (before.length - after.length)))

/-- The end of a declaration, a statement or an item: the end of a line or of the text, or a
semicolon. What is passed over are the comments before a semicolon. -/
def terminator : Phrase (List Comment) := do
  let t ← peek
  if t.lineBreak || t.kind == .ending then return []
  else
    let t ← signOf [";", "\x00"]
    return t.comments

end Phrase

/-! ## Items

What stands in a list of declarations, fields or methods, with the comments above it.
-/

/-- An item, with the comments since the item before it, and the lines on which it starts and
ends. -/
structure Placed (α : Type) where
  above : List Comment
  first : Nat
  last : Nat
  value : α

namespace Phrase

/-- An item after comments that have been passed over already. -/
def placed {α : Type} (before : List Comment) (p : Phrase α) : Phrase (Placed α) := do
  let t ← peek
  let a ← p
  return ⟨before ++ t.comments, t.first, (← peek).previous, a⟩

/-- Items, each with an end of its own. -/
def endedItems {α : Type} (before : List Comment) (p : Phrase α) : Phrase (List (Placed α)) := do
  let (items, _) ← iterate (fun (items, before) => do
    let item ← placed before p
    return (item :: items, ← terminator)) ([], before)
  return items.reverse

/-- Items with ends between them, and perhaps one more at the end. -/
def separatedItems {α : Type} (before : List Comment) (p : Phrase α) :
    Phrase (List (Placed α)) := do
  match ← maybe (placed before p) with
  | none => return []
  | some item =>
    let items ← many (do placed (← terminator) p)
    let _ ← maybe terminator
    return item :: items

end Phrase

/-! ## Documentation -/

/-- What a comment says, without its marks. -/
def Comment.body (c : Comment) : String :=
  match Text.dropPrefix? "//" c.text with
  | some line => Text.trim line
  | none =>
    let inner := ((Text.dropPrefix? "/*" c.text).bind (Text.dropSuffix? "*/")).getD c.text
    Text.trim ("\n".intercalate ((Text.lines inner).map Text.trim))

/-- What the comments say that reach up from a line without a line between them, the nearest one
first. The farthest one of all does not count if it starts on the line on which the item before
ends. -/
def bodiesAbove (previous : Option Nat) : Nat → List Comment → List String
  | _, [] => []
  | line, c :: cs =>
    if c.last + 1 ≠ line ∨ (cs = [] ∧ previous = some c.first) then []
    else c.body :: bodiesAbove previous c.first cs

/-- The documentation of an item, where `previous` is the line on which the item before it ends. -/
def Placed.doc {α : Type} (previous : Option Nat) (p : Placed α) : String :=
  Text.trim ("\n".intercalate (bodiesAbove previous p.first p.above.reverse).reverse)

/-- The items, each with what its documentation makes of it. -/
def documentedAfter {α β : Type} (f : String → Placed α → β) :
    Option Nat → List (Placed α) → List β
  | _, [] => []
  | previous, p :: ps => f (p.doc previous) p :: documentedAfter f (some p.last) ps

/-- The items of a list, each with what its documentation makes of it. -/
def documented {α β : Type} (f : String → Placed α → β) (ps : List (Placed α)) : List β :=
  documentedAfter f none ps

end Atlas.Golang
