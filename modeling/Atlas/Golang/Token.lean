import Atlas.Text
import Atlas.Chars.Class

/-!
# Go tokens

A source text as tokens: words, numbers, strings, runes and signs. Every token knows what stands
between it and the token before it (blanks and comments) and whether a line ends there, which in Go
can end a declaration or a statement. A text is read piece by piece, a piece being a character or
bytes that are none.
-/

namespace Atlas.Golang

/-- A text, with nothing in place of bytes that are no character. -/
abbrev Source := List (Option Char)

/-- The text of a part of a source; empty if some of its bytes are no character. -/
def Source.text (s : Source) : String :=
  match s.mapM id with
  | some cs => String.ofList cs
  | none => ""

/-- Whether a piece is a character that satisfies `p`. -/
def pieceIs (p : Char → Bool) (c : Option Char) : Bool := c.any p

/-- How many lines end in a part of a source. -/
def Source.lineEnds (s : Source) : Nat := s.count (some '\n')

/-- What a token is. The end of the text is a token of its own. -/
inductive TokenKind where
  | word
  | number
  | text
  | rune
  | sign
  | ending
  deriving DecidableEq, Repr, Inhabited

/-- A comment with the lines on which it starts and ends. -/
structure Comment where
  text : String
  first : Nat
  last : Nat
  deriving DecidableEq, Repr, Inhabited

/-- What stands between two tokens. -/
structure Gap where
  spelled : Source := []
  comments : List Comment := []
  /-- Whether a line ends in it, outside of a comment. -/
  lineBreak : Bool := false
  deriving Repr, Inhabited

/-- A token, with the lines on which it starts and ends. -/
structure Token where
  kind : TokenKind
  spelled : Source
  text : String
  gap : Gap
  first : Nat
  last : Nat
  /-- The line on which the token before it ends. -/
  previous : Nat
  deriving Repr, Inhabited

namespace Token

/-- The comments before a token. -/
def comments (t : Token) : List Comment := t.gap.comments

/-- Whether a line ends before a token. -/
def lineBreak (t : Token) : Bool := t.gap.lineBreak

/-- Whether a token is this sign. -/
def isSign (s : String) (t : Token) : Bool := t.kind == .sign && t.text == s

/-- Whether a token is this word. -/
def isWord (s : String) (t : Token) : Bool := t.kind == .word && t.text == s

/-- The text of the tokens, with what stands between them but not what stands before the first. -/
def span : List Token → String
  | [] => ""
  | t :: ts => Source.text (t.spelled ++ ts.flatMap fun t => t.gap.spelled ++ t.spelled)

end Token

/-! ## Numbers

A run of digits may have one underscore between any two of them. Of the readings of a number the
longest counts.
-/

/-- How much of a text goes on with the digits of a run. -/
def digitsAfter (p : Char → Bool) : Source → Nat
  | some '_' :: some c :: r => if p c then 2 + digitsAfter p r else 0
  | some c :: r => if p c then 1 + digitsAfter p r else 0
  | _ => 0

/-- The length of the run of digits at the start of a text. -/
def digits (p : Char → Bool) : Source → Nat
  | some c :: r => if p c then 1 + digitsAfter p r else 0
  | _ => 0

/-- The length of a run of digits that an underscore may open. -/
def openedDigits (p : Char → Bool) (s : Source) : Nat :=
  match s with
  | some '_' :: r => if digits p r = 0 then 0 else 1 + digits p r
  | _ => digits p s

def isOctal (c : Char) : Bool := '0' ≤ c && c ≤ '7'

def isHex (c : Char) : Bool :=
  Chars.isAsciiDigit c || ('a' ≤ c && c ≤ 'f') || ('A' ≤ c && c ≤ 'F')

/-- The length of an exponent with one of these letters. -/
def exponent (letters : List Char) : Source → Nat
  | some c :: r =>
    if letters.contains c then
      let signLength := match r with
        | some '+' :: _ => 1
        | some '-' :: _ => 1
        | _ => 0
      let n := digits Chars.isAsciiDigit (r.drop signLength)
      if n = 0 then 0 else 1 + signLength + n
    else 0
  | _ => 0

/-- The length of a decimal fraction. -/
def decimalFraction (s : Source) : Nat :=
  let whole := digits Chars.isAsciiDigit s
  match s.drop whole with
  | some '.' :: r =>
    let part := digits Chars.isAsciiDigit r
    if whole = 0 ∧ part = 0 then 0
    else whole + 1 + part + exponent ['e', 'E'] (r.drop part)
  | r => if whole = 0 ∨ exponent ['e', 'E'] r = 0 then 0 else whole + exponent ['e', 'E'] r

/-- The length of a hexadecimal fraction after its mark. -/
def hexFraction (s : Source) : Nat :=
  let whole := openedDigits isHex s
  let mantissa := match s.drop whole with
    | some '.' :: r => if whole = 0 ∧ digits isHex r = 0 then 0 else whole + 1 + digits isHex r
    | _ => whole
  let power := exponent ['p', 'P'] (s.drop mantissa)
  if mantissa = 0 ∨ power = 0 then 0 else mantissa + power

/-- The length of digits after their mark, together with the mark. -/
def marked (mark length : Nat) : Nat := if length = 0 then 0 else mark + length

/-- The lengths of the readings of a number that are real; zero stands for none. -/
def realLengths (s : Source) : List Nat :=
  match s with
  | some '0' :: some c :: r =>
    let after := some c :: r
    [1, decimalFraction s, marked 1 (openedDigits isOctal after)] ++
      (if c = 'x' ∨ c = 'X' then [marked 2 (openedDigits isHex r), marked 2 (hexFraction r)]
        else if c = 'b' ∨ c = 'B' then [marked 2 (openedDigits (fun d => d == '0' || d == '1') r)]
        else if c = 'o' ∨ c = 'O' then [marked 2 (openedDigits isOctal r)]
        else [])
  | some '0' :: _ => [1, decimalFraction s]
  | _ => [digits Chars.isAsciiDigit s, decimalFraction s]

/-- The length of the number at the start of a text. -/
def numberLength (s : Source) : Nat :=
  let lengths := realLengths s
  let imaginary := (digits Chars.isAsciiDigit s :: lengths).map fun n =>
    if n ≠ 0 ∧ s[n]? = some (some 'i') then n + 1 else 0
  (lengths ++ imaginary).foldl max 0

/-! ## Strings and runes -/

/-- Whether the next `n` pieces are hexadecimal digits. -/
def hexDigits (n : Nat) (s : Source) : Bool := (s.take n).length == n && (s.take n).all (pieceIs isHex)

/-- The length of what follows a backslash in a string. -/
def stringEscape : Source → Option Nat
  | some 'x' :: r =>
    if hexDigits 2 r then some (1 + (r.takeWhile (pieceIs isHex)).length) else none
  | some 'u' :: r => if hexDigits 4 r then some 5 else none
  | some 'U' :: r => if hexDigits 8 r then some 9 else none
  | some '\x00' :: _ => none
  | _ :: _ => some 1
  | [] => none

/-- The length of the rest of a string, up to the quote that ends it. The number counts the pieces
of an escape that are still to be passed over. -/
def stringRest : Nat → Source → Option Nat
  | _, [] => none
  | n + 1, _ :: r => (stringRest n r).map (· + 1)
  | 0, some '"' :: _ => some 1
  | 0, some '\n' :: _ => none
  | 0, some '\x00' :: _ => none
  | 0, some '\\' :: r => do
    let n ← stringEscape r
    return (← stringRest n r) + 1
  | 0, _ :: r => (stringRest 0 r).map (· + 1)

/-- The length of the rest of a raw string. -/
def rawRest : Source → Option Nat
  | [] => none
  | some '\x60' :: _ => some 1
  | some '\x00' :: _ => none
  | _ :: r => (rawRest r).map (· + 1)

/-- The length of what follows a backslash in a rune. -/
def runeEscape : Source → Option Nat
  | some 'x' :: r => if hexDigits 2 r then some 3 else none
  | some 'u' :: r => if hexDigits 4 r then some 5 else none
  | some 'U' :: r => if hexDigits 8 r then some 9 else none
  | some c :: r =>
    if "abfnrtv\\'\"".toList.contains c then some 1
    else if isOctal c ∧ (r.take 2).length = 2 ∧ (r.take 2).all (pieceIs isOctal) then some 3
    else none
  | _ => none

/-- The length of a rune after its first quote. -/
def runeRest (s : Source) : Option Nat :=
  let body := match s with
    | some '\\' :: r => (runeEscape r).map (· + 1)
    | some '\'' :: _ => none
    | some '\x00' :: _ => none
    | _ :: _ => some 1
    | [] => none
  body.bind fun n => if s[n]? = some (some '\'') then some (n + 1) else none

/-! ## Signs and lexemes -/

/-- The signs of more than one character, the longer ones first. -/
def longSigns : List (List Char) :=
  ["<<=", ">>=", "&^=", "...", "&&", "||", "<-", "++", "--", "==", "!=", "<=", ">=", ":=", "+=",
    "-=", "*=", "/=", "%=", "&=", "|=", "^=", "<<", ">>", "&^"].map String.toList

/-- The signs of one character. The character zero ends a declaration as a semicolon does. -/
def shortSigns : List Char := "+-*/%&|^<>=!()[]\x7b\x7d,;.:~\x00".toList

/-- Whether the characters stand at the start of a text. -/
def startsWith (cs : List Char) (s : Source) : Bool := (cs.map some).isPrefixOf s

/-- The kind and the length of the token at the start of a text. -/
def lexeme? (s : Source) : Option (TokenKind × Nat) :=
  let sign := match longSigns.find? (startsWith · s), s with
    | some cs, _ => some (.sign, cs.length)
    | none, some c :: _ => if shortSigns.contains c then some (.sign, 1) else none
    | none, _ => none
  match s with
  | some '"' :: r => (stringRest 0 r).map fun n => (.text, n + 1)
  | some '\x60' :: r => (rawRest r).map fun n => (.text, n + 1)
  | some '\'' :: r => (runeRest r).map fun n => (.rune, n + 1)
  | some c :: r =>
    if c == '_' || Chars.isIdentifierStart c then
      some (.word, 1 + (r.takeWhile (pieceIs fun c => c == '_' || Chars.isIdentifierContinue c)).length)
    else if 0 < numberLength s then some (.number, numberLength s)
    else sign
  | _ => none

/-- The length of the rest of a comment between marks. -/
def blockRest : Source → Option Nat
  | some '*' :: some '/' :: _ => some 2
  | some '\x00' :: _ => none
  | _ :: r => (blockRest r).map (· + 1)
  | [] => none

/-- The length of the comment at the start of a text, if one stands there; nothing at all if it has
no end. -/
def commentLength? : Source → Option (Option Nat)
  | some '/' :: some '/' :: r =>
    some (some (2 + (r.takeWhile fun c => c != some '\n' && c != some '\x00').length))
  | some '/' :: some '*' :: r => (blockRest r).map fun n => some (n + 2)
  | _ => some none

/-! ## Tokens -/

/-- The gap with one more blank. -/
def Gap.addBlank (g : Gap) (c : Char) : Gap :=
  { g with spelled := g.spelled ++ [some c], lineBreak := g.lineBreak || c == '\n' }

/-- The gap with one more comment. -/
def Gap.addComment (g : Gap) (spelled : Source) (line : Nat) : Gap :=
  { g with
    spelled := g.spelled ++ spelled
    comments := g.comments ++ [⟨spelled.text, line, line + spelled.lineEnds⟩] }

/-- The tokens of the rest of a text, where `previous` is the line on which the last token ended,
`gap` what has been passed over since, and `line` the line on which the rest starts. The first
argument bounds the number of steps, each of which takes at least one piece. -/
def tokensFrom? : Nat → Nat → Gap → Nat → Source → Option (List Token)
  | _, previous, gap, line, [] => some [⟨.ending, [], "", gap, line, line, previous⟩]
  | 0, _, _, _, _ => none
  | n + 1, previous, gap, line, c :: r =>
    if c.any Chars.isBlank then
      tokensFrom? n previous (gap.addBlank (c.getD ' ')) (line + Source.lineEnds [c]) r
    else
      match commentLength? (c :: r) with
      | none => none
      | some (some k) =>
        let spelled : Source := (c :: r).take k
        tokensFrom? n previous (gap.addComment spelled line) (line + spelled.lineEnds)
          ((c :: r).drop k)
      | some none => do
        let (kind, k) ← lexeme? (c :: r)
        let spelled : Source := (c :: r).take k
        let last := line + spelled.lineEnds
        return ⟨kind, spelled, spelled.text, gap, line, last, previous⟩ ::
          (← tokensFrom? n last {} last ((c :: r).drop k))

/-- The tokens of a text, if it has no other parts. A byte order mark at its start is passed
over. -/
def tokens? (s : Source) : Option (List Token) :=
  let s := match s with
    | some '\uFEFF' :: r => r
    | s => s
  tokensFrom? (s.length + 1) 1 {} 1 s

end Atlas.Golang
