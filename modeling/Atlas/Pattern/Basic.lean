import Atlas.Pattern.CharSet

/-!
# Patterns

Regular expressions with named groups, and the search for them. Of several ways to match at one
place the first counts, in the order in which the pattern lists them: the left alternative before
the right one, one more turn of a greedy repetition before none. `Pattern.run` gives the first way
that also suits what follows; `Pattern.findAll` lists the matches in a text from the left, without
overlap.
-/

namespace Atlas

/-- A place in a text: the character before it and the characters after it. -/
structure Cursor where
  before : Option Char
  rest : List Char
  /-- How many characters stand before. -/
  index : Nat

/-- The place before the first character. -/
def Cursor.start (s : List Char) : Cursor := ⟨none, s, 0⟩

/-- The texts of the named groups matched so far, the latest first. -/
abbrev Captures := List (String × List Char)

/-- A condition on a place. -/
inductive Assertion where
  | textStart
  | textEnd
  | lineStart
  | lineEnd
  | wordBoundary
  | noWordBoundary
  | wordStart
  | wordEnd
  | wordStartHalf
  | wordEndHalf
  deriving DecidableEq, Repr

namespace Assertion

/-- Whether a character of a word stands before the place. -/
def wordBefore (c : Cursor) : Bool := c.before.any Chars.isWordChar

/-- Whether a character of a word stands after the place. -/
def wordAfter (c : Cursor) : Bool := c.rest.head?.any Chars.isWordChar

/-- Whether the condition holds at a place. -/
def holds (a : Assertion) (c : Cursor) : Bool :=
  match a with
  | textStart => c.before.isNone
  | textEnd => c.rest.isEmpty
  | lineStart => c.before.isNone || c.before == some '\n'
  | lineEnd => c.rest.isEmpty || c.rest.head? == some '\n'
  | wordBoundary => wordBefore c != wordAfter c
  | noWordBoundary => wordBefore c == wordAfter c
  | wordStart => !wordBefore c && wordAfter c
  | wordEnd => wordBefore c && !wordAfter c
  | wordStartHalf => !wordBefore c
  | wordEndHalf => !wordAfter c

end Assertion

/-- A pattern. -/
inductive Pattern where
  | empty
  | one (s : CharSet)
  | assert (a : Assertion)
  | seq (a b : Pattern)
  | alt (a b : Pattern)
  /-- At least `min` turns, and at most `max` if that is given. -/
  | repeated (greedy : Bool) (min : Nat) (max : Option Nat) (a : Pattern)
  /-- A named group. -/
  | group (name : String) (a : Pattern)

namespace Pattern

/-- What is left to do at a place: give a result, or none if the way there does not suit. -/
abbrev Continuation (α : Type) := Cursor → Captures → Option α

/-- Just `n` turns of a step, then `k`. -/
def turns {α : Type} (step : Continuation α → Continuation α) :
    Nat → Continuation α → Continuation α
  | 0, k => k
  | n + 1, k => step (turns step n k)

/-- At most `n` turns of a step, then `k`. A turn that consumes nothing is the last one. -/
def upTo {α : Type} (greedy : Bool) (step : Continuation α → Continuation α) :
    Nat → Continuation α → Continuation α
  | 0, k => k
  | n + 1, k => fun c caps =>
    let once := fun c' caps' =>
      if c'.index = c.index then k c' caps' else upTo greedy step n k c' caps'
    if greedy then
      match step once c caps with
      | some r => some r
      | none => k c caps
    else
      match k c caps with
      | some r => some r
      | none => step once c caps

/-- The first way to match the pattern at a place for which the continuation has a result. -/
def run {α : Type} : Pattern → Continuation α → Continuation α
  | empty, k => k
  | one s, k => fun c caps =>
    match c.rest with
    | x :: r => if s.has x then k ⟨some x, r, c.index + 1⟩ caps else none
    | [] => none
  | assert a, k => fun c caps => if a.holds c then k c caps else none
  | seq a b, k => a.run (b.run k)
  | alt a b, k => fun c caps =>
    match a.run k c caps with
    | some r => some r
    | none => b.run k c caps
  | repeated greedy min max a, k =>
    turns (fun k => a.run k) min fun c caps =>
      let room := c.rest.length
      let n := match max with
        | some m => Nat.min (m - min) room
        | none => room
      upTo greedy (fun k => a.run k) n k c caps
  | group name a, k => fun c caps =>
    a.run (fun c' caps' => k c' ((name, c.rest.take (c'.index - c.index)) :: caps')) c caps

/-- A match: the place where it starts, the place where it ends, and its groups. -/
structure Match where
  start : Cursor
  stop : Cursor
  captures : Captures

/-- The first match at a place. -/
def matchAt? (p : Pattern) (c : Cursor) : Option Match :=
  p.run (fun stop captures => some ⟨c, stop, captures⟩) c []

/-- The first match at a place or to its right. -/
def searchFrom (p : Pattern) (before : Option Char) (index : Nat) : List Char → Option Match
  | [] => p.matchAt? ⟨before, [], index⟩
  | x :: r =>
    match p.matchAt? ⟨before, x :: r, index⟩ with
    | some m => some m
    | none => searchFrom p (some x) (index + 1) r

/-- The first match at a place or to its right. -/
def search? (p : Pattern) (c : Cursor) : Option Match := p.searchFrom c.before c.index c.rest

/-- The first match in a text. -/
def find? (p : Pattern) (s : List Char) : Option Match := p.search? (Cursor.start s)

/-- Whether the pattern matches somewhere in a text. -/
def isMatch (p : Pattern) (s : List Char) : Bool := (p.find? s).isSome

/-- The matches from a place on, which `last` says to be the end of a match. An empty match there
is passed over. Each match ends further on than the last one, or is empty at its end. -/
def matchesFrom (p : Pattern) : Nat → Cursor → Option Nat → List Match
  | 0, _, _ => []
  | fuel + 1, c, last =>
    match p.search? c with
    | none => []
    | some m =>
      if m.stop.index = m.start.index ∧ last = some m.stop.index then
        match c.rest with
        | [] => []
        | x :: r =>
          match p.search? ⟨some x, r, c.index + 1⟩ with
          | none => []
          | some m => m :: matchesFrom p fuel m.stop (some m.stop.index)
      else m :: matchesFrom p fuel m.stop (some m.stop.index)

/-- The matches in a text, from the left and without overlap. -/
def findAll (p : Pattern) (s : List Char) : List Match :=
  matchesFrom p (s.length + 2) (Cursor.start s) none

/-- The text of a group, if the group took part in the match. -/
def Match.group? (m : Match) (name : String) : Option String :=
  (m.captures.lookup name).map String.ofList

/-- The text of a group, empty if the group took no part in the match. -/
def Match.group (m : Match) (name : String) : String := (m.group? name).getD ""

/-- What a compiled pattern takes, counted in steps. -/
def weight : Pattern → Nat
  | empty => 1
  | one s => s.weight
  | assert _ => 1
  | seq a b => a.weight + b.weight
  | alt a b => 1 + a.weight + b.weight
  | repeated _ min max a => 1 + a.weight * (Nat.max 1 (max.getD min))
  | group _ a => 2 + a.weight

end Pattern

end Atlas
