/-!
# Places in a YAML text

The character classes of YAML and a cursor: the text that is left with the line and the column at
which it starts. A line break counts as one step down, whichever way it is written, and is read as
a line feed unless it is one of the two separators that are kept.
-/

namespace Atlas.Yaml

/-! ## Characters -/

/-- A character that may stand in a text at all. -/
def isPrintable (c : Char) : Bool :=
  let n := c.toNat
  n == 0x9 || n == 0xA || n == 0xD || (0x20 ≤ n && n ≤ 0x7E) || n == 0x85 ||
    (0xA0 ≤ n && n ≤ 0xD7FF) || (0xE000 ≤ n && n ≤ 0xFFFD) || (0x10000 ≤ n && n ≤ 0x10FFFF)

/-- A character that ends a line. -/
def isBreak (c : Char) : Bool :=
  c == '\n' || c == '\r' || c == '\u0085' || c == '\u2028' || c == '\u2029'

/-- A space or a tab. -/
def isBlank (c : Char) : Bool := c == ' ' || c == '\t'

/-- A character of names of anchors and tag handles. -/
def isNameChar (c : Char) : Bool :=
  ('0' ≤ c && c ≤ '9') || ('A' ≤ c && c ≤ 'Z') || ('a' ≤ c && c ≤ 'z') || c == '_' || c == '-'

/-- Whether the text is over, or goes on with a blank or a break. -/
def atGap : List Char → Bool
  | [] => true
  | c :: _ => isBlank c || isBreak c

/-- Whether the line is over. -/
def atLineEnd : List Char → Bool
  | [] => true
  | c :: _ => isBreak c

/-- Whether the text starts with the characters `p`. -/
def startsWith (p s : List Char) : Bool := p.isPrefixOf s

/-- Whether a line that reads so starts or ends a document. -/
def isDocumentMark (s : List Char) : Bool :=
  (startsWith ['-', '-', '-'] s || startsWith ['.', '.', '.'] s) && atGap (s.drop 3)

/-! ## Lines -/

/-- A text at its line breaks: the first line, and each break with the line after it. The breaks
are read as line feeds, except the separators of lines and paragraphs. -/
def splitBreaks : List Char → List Char × List (Char × List Char)
  | [] => ([], [])
  | '\r' :: '\n' :: r => let (l, ls) := splitBreaks r; ([], ('\n', l) :: ls)
  | c :: r =>
    let (l, ls) := splitBreaks r
    if isBreak c then
      ([], (if c == '\u2028' || c == '\u2029' then c else '\n', l) :: ls)
    else (c :: l, ls)

/-! ## Cursors -/

/-- The text that is left, and where it starts. -/
structure Cursor where
  rest : List Char
  line : Nat
  column : Nat
  /-- How many characters stand before. -/
  index : Nat

namespace Cursor

/-- The start of a text. -/
def start (s : List Char) : Cursor := ⟨s, 0, 0, 0⟩

/-- Past `n` characters of the line. -/
def skip (c : Cursor) (n : Nat) : Cursor :=
  { c with rest := c.rest.drop n, column := c.column + n, index := c.index + n }

/-- Past the characters of the line for which `p` holds. -/
def skipWhile (p : Char → Bool) (c : Cursor) : Cursor := c.skip (c.rest.takeWhile p).length

/-- Past the rest of the line, without its break. -/
def skipLine (c : Cursor) : Cursor := c.skipWhile (fun x => !isBreak x)

/-- The break at which the line ends, and the start of the next line. -/
def break? (c : Cursor) : Option (Char × Cursor) :=
  match c.rest with
  | '\r' :: '\n' :: r => some ('\n', ⟨r, c.line + 1, 0, c.index + 2⟩)
  | x :: r =>
    if isBreak x then
      some (if x == '\u2028' || x == '\u2029' then x else '\n', ⟨r, c.line + 1, 0, c.index + 1⟩)
    else none
  | [] => none

/-- Past the break at which the line ends, if there is one. -/
def skipBreak (c : Cursor) : Cursor :=
  match c.break? with
  | some (_, d) => d
  | none => c

/-- Past blanks and breaks. Gives them too. -/
def takeGap (c : Cursor) : List Char × Cursor :=
  let gap := c.rest.takeWhile fun x => isBlank x || isBreak x
  let (first, more) := splitBreaks gap
  let column := match more.getLast? with
    | some (_, l) => l.length
    | none => c.column + first.length
  (gap, ⟨c.rest.drop gap.length, c.line + more.length, column, c.index + gap.length⟩)

/-- Whether a line starts here that starts or ends a document. -/
def atDocumentMark (c : Cursor) : Bool := c.column == 0 && isDocumentMark c.rest

end Cursor

/-! ## Folding -/

/-- What stands for a gap between two words of a text of several lines: the blanks, or for a single
line feed a space, or for several breaks all but the first. -/
def foldGap (gap : List Char) : List Char :=
  match splitBreaks gap with
  | (blanks, []) => blanks
  | (_, (first, _) :: more) =>
    let more := more.map Prod.fst
    if first != '\n' then first :: more else if more.isEmpty then [' '] else more

/-- The breaks of a gap after a line that was continued on purpose. -/
def continuedGap (gap : List Char) : List Char := (splitBreaks gap).2.map Prod.fst

end Atlas.Yaml
