import Atlas.Yaml.Cursor
import Atlas.Json.Reader

/-!
# Texts in YAML

The five ways in which a text is written: plain, in single or double quotes, and as a literal or
folded block. Each reader starts at the first character of the text and gives its characters with
the cursor after it; none where the text is not well formed.
-/

namespace Atlas.Yaml

/-- How a text is written. -/
inductive ScalarStyle where
  | plain
  | singleQuoted
  | doubleQuoted
  | literal
  | folded
  deriving DecidableEq, Repr

/-! ## Quotes -/

/-- Reads up to the closing single quote. A doubled quote stands for one. -/
def singleQuoted? : Nat → Cursor → List Char → Option (List Char × Cursor)
  | 0, _, _ => none
  | fuel + 1, c, acc =>
    if c.atDocumentMark then none
    else match c.rest with
      | [] => none
      | '\'' :: '\'' :: _ => singleQuoted? fuel (c.skip 2) ('\'' :: acc)
      | '\'' :: _ => some (acc.reverse, c.skip 1)
      | x :: _ =>
        if isBlank x || isBreak x then
          let (gap, d) := c.takeGap
          singleQuoted? fuel d ((foldGap gap).reverse ++ acc)
        else singleQuoted? fuel (c.skip 1) (x :: acc)

/-- The character of an escape of one letter. -/
def shortEscape? (x : Char) : Option Char :=
  match x with
  | '0' => some '\x00'
  | 'a' => some '\x07'
  | 'b' => some '\x08'
  | 't' => some '\t'
  | '\t' => some '\t'
  | 'n' => some '\n'
  | 'v' => some '\x0b'
  | 'f' => some '\x0c'
  | 'r' => some '\r'
  | 'e' => some '\x1b'
  | ' ' => some ' '
  | '"' => some '"'
  | '/' => some '/'
  | '\\' => some '\\'
  | 'N' => some '\u0085'
  | '_' => some '\u00a0'
  | 'L' => some '\u2028'
  | 'P' => some '\u2029'
  | _ => none

/-- How many digits follow the letter of an escape by number. -/
def escapeWidth? (x : Char) : Option Nat :=
  match x with
  | 'x' => some 2
  | 'u' => some 4
  | 'U' => some 8
  | _ => none

/-- The number that hexadecimal digits write. -/
def hexNumber? (ds : List Char) : Option Nat :=
  ds.foldlM (fun n d => do return n * 16 + (← Json.hexValue? d)) 0

/-- The character with this number. -/
def charOfNat? (n : Nat) : Option Char :=
  if n < 0xD800 ∨ (0xDFFF < n ∧ n < 0x110000) then some (Char.ofNat n) else none

/-- The character of an escape, and how many characters the escape has after the backslash. -/
def escape? : List Char → Option (Char × Nat)
  | [] => none
  | x :: r =>
    match shortEscape? x with
    | some y => some (y, 1)
    | none => do
      let width ← escapeWidth? x
      let ds := r.take width
      if ds.length ≠ width then none
      return (← charOfNat? (← hexNumber? ds), width + 1)

/-- Reads up to the closing double quote. A backslash before a break joins two lines. -/
def doubleQuoted? : Nat → Cursor → List Char → Option (List Char × Cursor)
  | 0, _, _ => none
  | fuel + 1, c, acc =>
    if c.atDocumentMark then none
    else match c.rest with
      | [] => none
      | '"' :: _ => some (acc.reverse, c.skip 1)
      | '\\' :: r =>
        if !r.isEmpty && atLineEnd r then
          let (gap, d) := (c.skip 1).skipBreak.takeGap
          doubleQuoted? fuel d ((continuedGap gap).reverse ++ acc)
        else do
          let (y, n) ← escape? r
          doubleQuoted? fuel (c.skip (n + 1)) (y :: acc)
      | x :: _ =>
        if isBlank x || isBreak x then
          let (gap, d) := c.takeGap
          doubleQuoted? fuel d ((foldGap gap).reverse ++ acc)
        else doubleQuoted? fuel (c.skip 1) (x :: acc)

/-- Reads a quoted text from its opening quote. -/
def quoted? (single : Bool) (c : Cursor) : Option (List Char × Cursor) :=
  let c := c.skip 1
  let fuel := c.rest.length + 1
  if single then singleQuoted? fuel c [] else doubleQuoted? fuel c []

/-! ## Plain texts -/

/-- A character that has a meaning of its own between brackets. -/
def isFlowMark (c : Char) : Bool := c == ',' || c == '[' || c == ']' || c == '{' || c == '}'

/-- Whether a colon between brackets is followed by what it may not be followed by. -/
def isStrayColon : List Char → Bool
  | ':' :: x :: _ => isFlowMark x || x == '?'
  | _ => false

/-- Whether a plain word ends here. -/
def plainWordEnds (flow : Bool) : List Char → Bool
  | [] => true
  | ':' :: r => atGap r
  | c :: _ => isBlank c || isBreak c || (flow && isFlowMark c)

/-- The characters of a plain word; none where a colon stands between brackets as it may not. -/
def plainWord? (flow : Bool) : List Char → Option (List Char)
  | [] => some []
  | c :: r =>
    if isBlank c || isBreak c then some []
    else if flow && isStrayColon (c :: r) then none
    else if plainWordEnds flow (c :: r) then some []
    else (plainWord? flow r).map (c :: ·)

/-- Whether a tab stands within the first `indent` columns of a line after the first. -/
def tabIndents (indent : Nat) (gap : List Char) : Bool :=
  (splitBreaks gap).2.any fun (_, l) => (l.take indent).contains '\t'

/-- A plain text as read so far. -/
structure PlainText where
  /-- The characters, the last first. -/
  read : List Char
  /-- The gap after the last word. -/
  gap : List Char
  /-- After the gap. -/
  cursor : Cursor

/-- Reads the words of a plain text at a depth of `indent` columns. -/
def plainWords? (flow : Bool) (indent : Nat) : Nat → PlainText → Option PlainText
  | 0, t => some t
  | fuel + 1, t =>
    let c := t.cursor
    if c.atDocumentMark || c.rest.head? == some '#' then some t
    else do
      match ← plainWord? flow c.rest with
      | [] => return t
      | word =>
        let (gap, d) := (c.skip word.length).takeGap
        if tabIndents indent gap then none
        let t : PlainText := ⟨word.reverse ++ ((foldGap t.gap).reverse ++ t.read), gap, d⟩
        if gap.isEmpty || (!flow && d.column < indent) then return t
        else plainWords? flow indent fuel t

/-- Reads a plain text at a depth of `indent` columns. Tells also whether a line was ended after
it. -/
def plain? (flow : Bool) (indent : Nat) (c : Cursor) : Option (List Char × Bool × Cursor) := do
  let t ← plainWords? flow indent (c.rest.length + 1) ⟨[], [], c⟩
  return (t.read.reverse, t.gap.any isBreak, t.cursor)

/-! ## Blocks -/

/-- What becomes of the breaks at the end of a block. -/
inductive Chomping where
  | strip
  | clip
  | keep
  deriving DecidableEq, Repr

/-- A mark for the breaks at the end. -/
def chomping? : Char → Option Chomping
  | '-' => some .strip
  | '+' => some .keep
  | _ => none

/-- A mark for the depth of a block. -/
def increment? (c : Char) : Option Nat :=
  if '1' ≤ c ∧ c ≤ '9' then some (c.toNat - 48) else none

/-- The marks after the sign of a block, in either order, and how many characters they take. A
zero is no depth. -/
def blockHeader? (s : List Char) : Option (Chomping × Option Nat × Nat) :=
  match s with
  | '0' :: _ => none
  | a :: r =>
    match chomping? a, increment? a with
    | some k, _ =>
      match r with
      | '0' :: _ => none
      | b :: _ => match increment? b with
        | some n => some (k, some n, 2)
        | none => some (k, none, 1)
      | [] => some (k, none, 1)
    | none, some n =>
      match r.head?.bind chomping? with
      | some k => some (k, some n, 2)
      | none => some (.clip, some n, 1)
    | none, none => some (.clip, none, 0)
  | [] => some (.clip, none, 0)

/-- Reads the empty lines before a line of a block of known depth; none where a tab takes part in
the indentation. -/
def emptyLines? (indent : Nat) : Nat → Cursor → List Char → Option (List Char × Cursor)
  | 0, _, _ => none
  | fuel + 1, c, breaks =>
    let spaces := (c.rest.takeWhile (· == ' ')).length
    let c := c.skip (min spaces (indent - c.column))
    if c.column < indent && c.rest.head? == some '\t' then none
    else match c.break? with
      | some (b, d) => emptyLines? indent fuel d (b :: breaks)
      | none => some (breaks.reverse, c)

/-- Reads the empty lines before a block, and finds out its depth, which is that of its first line
that is not empty, but no less than that of an empty line before it. -/
def leadingLines? : Nat → Cursor → Nat → List Char → Option (List Char × Nat × Cursor)
  | 0, _, _, _ => none
  | fuel + 1, c, depth, breaks =>
    let c := c.skipWhile (· == ' ')
    let depth := max depth c.column
    if c.rest.head? == some '\t' then none
    else match c.break? with
      | some (b, d) => leadingLines? fuel d depth (b :: breaks)
      | none => some (breaks.reverse, depth, c)

/-- A block as read so far. -/
structure BlockText where
  /-- The characters, the last first. -/
  read : List Char
  /-- The break after the last line. -/
  lastBreak : Option Char
  /-- The breaks of the empty lines after it. -/
  emptyLines : List Char
  /-- Whether the last line starts with a blank. -/
  indented : Bool
  cursor : Cursor

/-- What stands between two lines of a block: their breaks, or where lines are folded and neither
starts with a blank, one break less, or a space. -/
def BlockText.between (folded indented : Bool) (t : BlockText) : List Char :=
  if folded && t.lastBreak == some '\n' && !t.indented && !indented then
    if t.emptyLines.isEmpty then [' '] else t.emptyLines
  else t.lastBreak.toList ++ t.emptyLines

/-- Reads the lines of a block of known depth. -/
def blockLines? (folded : Bool) (indent : Nat) : Nat → BlockText → Option BlockText
  | 0, _ => none
  | fuel + 1, t =>
    match t.cursor.rest with
    | [] => some t
    | x :: _ =>
      if t.cursor.column ≠ indent then some t
      else do
        let line := t.cursor.rest.takeWhile fun y => !isBreak y
        let read := line.reverse ++ ((t.between folded (isBlank x)).reverse ++ t.read)
        match (t.cursor.skip line.length).break? with
        | none => return ⟨read, none, [], isBlank x, t.cursor.skip line.length⟩
        | some (b, d) =>
          let (empty, d) ← emptyLines? indent fuel d []
          blockLines? folded indent fuel ⟨read, some b, empty, isBlank x, d⟩

/-- Reads a block from its sign, in a collection at column `indent`, which is -1 outside of any. -/
def block? (folded : Bool) (indent : Int) (c : Cursor) : Option (List Char × Cursor) := do
  let (chomping, increment, n) ← blockHeader? (c.rest.drop 1)
  let c := (c.skip (n + 1)).skipWhile isBlank
  let c := if c.rest.head? == some '#' then c.skipLine else c
  if !atLineEnd c.rest then none
  let c := c.skipBreak
  let fuel := c.rest.length + 1
  let (empty, depth, c) ← match increment with
    | some n => do
      let depth := (max indent 0).toNat + n
      let (empty, c) ← emptyLines? depth fuel c []
      pure (empty, depth, c)
    | none => do
      let (empty, depth, c) ← leadingLines? fuel c 0 []
      pure (empty, max depth (max (indent + 1) 1).toNat, c)
  let t ← blockLines? folded depth fuel ⟨[], none, empty, false, c⟩
  let tail := match chomping with
    | .strip => []
    | .clip => t.lastBreak.toList
    | .keep => t.lastBreak.toList ++ t.emptyLines
  return (t.read.reverse ++ tail, t.cursor)

end Atlas.Yaml
