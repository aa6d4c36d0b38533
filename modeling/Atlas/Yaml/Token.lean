import Atlas.Chars.Utf8
import Atlas.Yaml.Scalar

/-!
# The tokens of YAML

`Token.scan?` cuts a text into tokens. Indentation becomes tokens of its own: a deeper line opens a
block, a shallower one closes blocks (`Scanner.closeBlocks`). A simple key is known as a key only
when its colon is met, so the place where it started is remembered (`SimpleKey`) and the tokens
that open it are put there afterwards (`Scanner.value?`).
-/

namespace Atlas.Yaml

/-- A tag as it is written: a handle that a directive may define, and what follows it. -/
structure TagText where
  handle : List Char
  suffix : List Char
  deriving DecidableEq, Repr

inductive Token where
  | version (major minor : Nat)
  | tagHandle (handle leading : List Char)
  | documentStart
  | documentEnd
  | blockSequenceStart
  | blockMappingStart
  | blockEnd
  | flowSequenceStart
  | flowSequenceEnd
  | flowMappingStart
  | flowMappingEnd
  | blockEntry
  | flowEntry
  | key
  | value
  | reference (name : List Char)
  | anchor (name : List Char)
  | tag (text : TagText)
  | scalar (style : ScalarStyle) (text : List Char)
  deriving DecidableEq, Repr

/-- The start of what may turn out to be a key. -/
structure SimpleKey where
  /-- How many tokens stand before it. -/
  position : Nat
  /-- Whether nothing but a key may stand there. -/
  required : Bool
  line : Nat
  column : Nat
  index : Nat

/-- The state of the scan. -/
structure Scanner where
  cursor : Cursor
  /-- The tokens so far, the last first. -/
  tokens : List Token
  /-- The column of the innermost block, -1 outside of any. -/
  indent : Int
  /-- The columns of the blocks around it. -/
  outer : List Int
  /-- Whether a key may start here. -/
  keyAllowed : Bool
  /-- The possible key of every open bracket, the innermost first, and of the block around. -/
  keys : List (Option SimpleKey)

namespace Scanner

/-- The state before the first character. -/
def start (s : List Char) : Scanner := ⟨Cursor.start s, [], -1, [], true, [none]⟩

/-- Whether a bracket is open. -/
def inFlow (s : Scanner) : Bool := 1 < s.keys.length

/-- Adds a token. -/
def push (s : Scanner) (t : Token) : Scanner := { s with tokens := t :: s.tokens }

/-- Puts tokens behind the first `position` tokens. -/
def insert (s : Scanner) (position : Nat) (ts : List Token) : Scanner :=
  let after := s.tokens.length - position
  { s with tokens := s.tokens.take after ++ ts.reverse ++ s.tokens.drop after }

/-- Moves the cursor. -/
def goTo (s : Scanner) (c : Cursor) : Scanner := { s with cursor := c }

/-- Allows a key to start here, or not. -/
def allowKey (s : Scanner) (allowed : Bool) : Scanner := { s with keyAllowed := allowed }

/-! ## Blocks -/

/-- Closes the blocks deeper than `column`. -/
def closeBlocksTo (column : Int) (tokens : List Token) : Int → List Int → List Token × Int × List Int
  | indent, [] => (tokens, indent, [])
  | indent, o :: outer =>
    if indent ≤ column then (tokens, indent, o :: outer)
    else closeBlocksTo column (.blockEnd :: tokens) o outer

/-- Closes the blocks deeper than `column`; brackets keep them open. -/
def closeBlocks (s : Scanner) (column : Int) : Scanner :=
  if s.inFlow then s
  else
    let (tokens, indent, outer) := closeBlocksTo column s.tokens s.indent s.outer
    { s with tokens := tokens, indent := indent, outer := outer }

/-- Opens a block at a column, if it is deeper than the innermost one. -/
def openBlock (s : Scanner) (column position : Nat) (t : Token) : Scanner :=
  if s.inFlow || (column : Int) ≤ s.indent then s
  else { s.insert position [t] with indent := column, outer := s.indent :: s.outer }

/-- Opens a block here. -/
def openBlockHere (s : Scanner) (t : Token) : Scanner :=
  s.openBlock s.cursor.column s.tokens.length t

/-! ## Keys -/

/-- Gives up the possible key of the innermost bracket; none where a key has to stand there. -/
def dropKey? (s : Scanner) : Option Scanner :=
  match s.keys with
  | some k :: r => if k.required then none else some { s with keys := none :: r }
  | _ => some s

/-- Notes that a key may start here. -/
def noteKey? (s : Scanner) : Option Scanner := do
  if !s.keyAllowed then return s
  let s ← s.dropKey?
  let c := s.cursor
  let k : SimpleKey :=
    ⟨s.tokens.length, !s.inFlow && s.indent == (c.column : Int), c.line, c.column, c.index⟩
  return { s with keys := some k :: s.keys.drop 1 }

/-- Whether a key that started there may still end here: it stands on one line and is short. -/
def isFresh (k : SimpleKey) (c : Cursor) : Bool := c.line ≤ k.line && c.index ≤ k.index + 1024

/-- Gives up the possible keys that are too far away; none where one of them has to be a key. -/
def dropStaleKeys? (s : Scanner) : Option Scanner :=
  if s.keys.any fun k => k.any fun k => !isFresh k s.cursor && k.required then none
  else some { s with keys := s.keys.map fun k => k.filter fun k => isFresh k s.cursor }

/-! ## Blanks and comments -/

/-- Past blanks, comments and line breaks. A tab is no blank where a key may start. -/
def skipGap : Nat → Scanner → Scanner
  | 0, s => s
  | fuel + 1, s =>
    let c := s.cursor
    let c := if c.column == 0 && c.rest.head? == some '\ufeff' then c.skip 1 else c
    let c := c.skipWhile fun x => x == ' ' || (x == '\t' && (s.inFlow || !s.keyAllowed))
    let c := if c.rest.head? == some '#' then c.skipLine else c
    match c.break? with
    | some (_, d) => skipGap fuel { s with cursor := d, keyAllowed := s.keyAllowed || !s.inFlow }
    | none => s.goTo c

/-! ## Directives, tags and anchors -/

/-- The decimal number of at most nine digits at the start of the text. -/
def number? (s : List Char) : Option (Nat × List Char) :=
  let ds := s.takeWhile Json.isDigit
  if ds.isEmpty || 9 < ds.length then none
  else some (ds.foldl (fun n d => n * 10 + (d.toNat - 48)) 0, s.drop ds.length)

/-- A character of a tag. Commas and brackets are among them in a tag written out in full. -/
def isTagChar (full : Bool) (c : Char) : Bool :=
  isNameChar c || ";/?:@&=+$.%!~*'()".toList.contains c || (full && ",[]".toList.contains c)

/-- The bytes that escapes by number write. -/
def escapedBytes : Nat → List Char → List Nat
  | 0, _ => []
  | n + 1, '%' :: a :: b :: r =>
    match hexNumber? [a, b] with
    | some x => x :: escapedBytes n r
    | none => []
  | _ + 1, _ => []

/-- How many bytes the character has that starts with this byte. -/
def byteCount? (b : Nat) : Option Nat :=
  if b < 0x80 then some 1
  else if b / 32 = 6 then some 2
  else if b / 16 = 14 then some 3
  else if b / 8 = 30 then some 4
  else none

/-- The character that escapes by number write, and how many escapes it has. -/
def escapedChar? (s : List Char) : Option (Char × Nat) := do
  let n ← byteCount? (← (escapedBytes 1 s).head?)
  let bytes := escapedBytes n s
  let text ← Utf8.decode? (bytes.map UInt8.ofNat)
  if bytes.length ≠ n then none
  return (← text.toList.head?, n)

/-- The characters of a tag, with escapes by number resolved, and the text after it. -/
def tagChars? (full : Bool) : Nat → List Char → Option (List Char × List Char)
  | 0, _ => none
  | _ + 1, [] => some ([], [])
  | fuel + 1, c :: r =>
    if !isTagChar full c then some ([], c :: r)
    else if c = '%' then do
      let (x, n) ← escapedChar? (c :: r)
      let (xs, r) ← tagChars? full fuel ((c :: r).drop (3 * n))
      return (x :: xs, r)
    else do
      let (xs, r) ← tagChars? full fuel r
      return (c :: xs, r)

/-- A tag of at least one character. -/
def tagText? (full : Bool) (s : List Char) : Option (List Char × List Char) := do
  let (cs, r) ← tagChars? full (s.length + 1) s
  if cs.isEmpty then none
  return (cs, r)

/-- A handle: an exclamation mark and a name, which another exclamation mark ends. -/
def handle? : List Char → Option (List Char × List Char)
  | '!' :: r =>
    let name := r.takeWhile isNameChar
    match r.drop name.length with
    | '!' :: r => some ('!' :: name ++ ['!'], r)
    | r => some ('!' :: name, r)
  | _ => none

/-- The text after a directive, up to and with the end of the line, which only a comment may fill. -/
def directiveEnd? (c : Cursor) : Option Cursor :=
  let c := c.skipWhile isBlank
  let c := if c.rest.head? == some '#' then c.skipLine else c
  if atLineEnd c.rest then some c.skipBreak else none

/-- The cursor before `r`, which stands further on in the line. -/
def upTo (c : Cursor) (r : List Char) : Cursor := c.skip (c.rest.length - r.length)

/-- A directive, from its percent sign. -/
def directive? (c : Cursor) : Option (Token × Cursor) := do
  let name := (c.rest.drop 1).takeWhile isNameChar
  let r := c.rest.drop (1 + name.length)
  if name.isEmpty || !atGap r then none
  let r := r.dropWhile isBlank
  if name = "YAML".toList then
    let (major, r) ← number? r
    match r with
    | '.' :: r =>
      let (minor, r) ← number? r
      return (.version major minor, ← directiveEnd? (upTo c r))
    | _ => none
  else if name = "TAG".toList then
    let (handle, r) ← handle? r
    if handle ≠ ['!'] ∧ handle.getLast? ≠ some '!' then none
    if !(r.head?.any isBlank) then none
    let (leading, r) ← tagText? true (r.dropWhile isBlank)
    if !atGap r then none
    return (.tagHandle handle leading, ← directiveEnd? (upTo c r))
  else none

/-- A tag, from its exclamation mark. -/
def tag? (flow : Bool) (c : Cursor) : Option (Token × Cursor) := do
  let (text, r) ← match c.rest with
    | '!' :: '<' :: r => do
      let (suffix, r) ← tagText? true r
      match r with
      | '>' :: r => pure (TagText.mk [] suffix, r)
      | _ => none
    | s => do
      let (handle, r) ← handle? s
      if 1 < handle.length ∧ handle.getLast? = some '!' then
        let (suffix, r) ← tagText? false r
        pure (TagText.mk handle suffix, r)
      else
        let (more, r) ← tagChars? false (r.length + 1) r
        match handle.drop 1 ++ more with
        | [] => pure (TagText.mk [] ['!'], r)
        | suffix => pure (TagText.mk ['!'] suffix, r)
  if atGap r || (flow && r.head? == some ',') then return (.tag text, upTo c r) else none

/-- The name after the sign of an anchor or an alias. -/
def name? (c : Cursor) : Option (List Char × Cursor) :=
  let name := (c.rest.drop 1).takeWhile isNameChar
  let c := c.skip (1 + name.length)
  if name.isEmpty then none
  else if atGap c.rest || "?:,]\x7d%@`".toList.contains (c.rest.headD ' ') then some (name, c)
  else none

/-! ## Tokens -/

/-- A directive or a mark between documents closes everything. -/
def boundary? (s : Scanner) (t : Token) (c : Cursor) : Option Scanner := do
  let s ← (s.closeBlocks (-1)).dropKey?
  return ((s.push t).goTo c).allowKey false

/-- An opening bracket, which may be the start of a key itself. -/
def openBracket? (s : Scanner) (t : Token) : Option Scanner := do
  let s ← s.noteKey?
  return (({ s with keys := none :: s.keys }.push t).goTo (s.cursor.skip 1)).allowKey true

/-- A closing bracket. -/
def closeBracket? (s : Scanner) (t : Token) : Option Scanner := do
  let s ← s.dropKey?
  let keys := match s.keys with
    | _ :: k :: r => k :: r
    | ks => ks
  return (({ s with keys := keys }.push t).goTo (s.cursor.skip 1)).allowKey false

/-- A comma between brackets. -/
def comma? (s : Scanner) : Option Scanner := do
  let s ← s.dropKey?
  return ((s.push .flowEntry).goTo (s.cursor.skip 1)).allowKey true

/-- The dash of an item. -/
def dash? (s : Scanner) : Option Scanner := do
  if !s.inFlow && !s.keyAllowed then none
  let s ← (s.openBlockHere .blockSequenceStart).dropKey?
  return ((s.push .blockEntry).goTo (s.cursor.skip 1)).allowKey true

/-- The question mark of a key. -/
def questionMark? (s : Scanner) : Option Scanner := do
  if !s.inFlow && !s.keyAllowed then none
  let s ← (s.openBlockHere .blockMappingStart).dropKey?
  return ((s.push .key).goTo (s.cursor.skip 1)).allowKey (!s.inFlow)

/-- The colon of a value. If a key may have started before, it is one now. -/
def value? (s : Scanner) : Option Scanner :=
  let finish (s : Scanner) := (s.push .value).goTo (s.cursor.skip 1)
  match s.keys with
  | some k :: r =>
    let s := { s with keys := none :: r }.insert k.position [.key]
    some ((finish (s.openBlock k.column k.position .blockMappingStart)).allowKey false)
  | _ =>
    if !s.inFlow && !s.keyAllowed then none
    else some ((finish (s.openBlockHere .blockMappingStart)).allowKey (!s.inFlow))

/-- A token that may be a key or stand before one. -/
def keyLike? (s : Scanner) (read : Cursor → Option (Token × Cursor)) : Option Scanner := do
  let s ← s.noteKey?
  let (t, c) ← read s.cursor
  return ((s.push t).goTo c).allowKey false

/-- A block of text, which is no key. -/
def blockText? (s : Scanner) (style : ScalarStyle) : Option Scanner := do
  let s ← s.dropKey?
  let (text, c) ← block? (style == .folded) s.indent s.cursor
  return ((s.push (.scalar style text)).goTo c).allowKey true

/-- A plain text. A key may start after it if it ended its line. -/
def plainText? (s : Scanner) : Option Scanner := do
  let s ← s.noteKey?
  let (text, ended, c) ← plain? s.inFlow (s.indent + 1).toNat s.cursor
  return ((s.push (.scalar .plain text)).goTo c).allowKey ended

/-- Whether a plain text may start so. -/
def startsPlain (flow : Bool) : List Char → Bool
  | [] => false
  | c :: r =>
    !(isBlank c || isBreak c || "-?:,[]\x7b\x7d#&*!|>'\"%@`".toList.contains c) ||
      (c == '-' && !r.head?.any isBlank) || (!flow && (c == '?' || c == ':') && !atGap r)

/-- Reads the token at the cursor, which stands at none of the blanks between tokens. -/
def token? (s : Scanner) : Option Scanner :=
  let c := s.cursor
  let flow := s.inFlow
  let plainOrNone := if startsPlain flow c.rest then s.plainText? else none
  if c.column == 0 && c.rest.head? == some '%' then do
    let (t, d) ← directive? c
    s.boundary? t d
  else if c.atDocumentMark then
    s.boundary? (if c.rest.head? == some '-' then .documentStart else .documentEnd) (c.skip 3)
  else match c.rest with
    | '[' :: _ => s.openBracket? .flowSequenceStart
    | '{' :: _ => s.openBracket? .flowMappingStart
    | ']' :: _ => s.closeBracket? .flowSequenceEnd
    | '}' :: _ => s.closeBracket? .flowMappingEnd
    | ',' :: _ => s.comma?
    | '-' :: r => if atGap r then s.dash? else plainOrNone
    | '?' :: r => if flow || atGap r then s.questionMark? else plainOrNone
    | ':' :: r => if flow || atGap r then s.value? else plainOrNone
    | '*' :: _ => s.keyLike? fun c => (name? c).map fun (n, d) => (.reference n, d)
    | '&' :: _ => s.keyLike? fun c => (name? c).map fun (n, d) => (.anchor n, d)
    | '!' :: _ => s.keyLike? (tag? flow)
    | '|' :: _ => if flow then plainOrNone else s.blockText? .literal
    | '>' :: _ => if flow then plainOrNone else s.blockText? .folded
    | '\'' :: _ => s.keyLike? fun c => (quoted? true c).map fun (t, d) => (.scalar .singleQuoted t, d)
    | '"' :: _ => s.keyLike? fun c => (quoted? false c).map fun (t, d) => (.scalar .doubleQuoted t, d)
    | _ => plainOrNone

/-- Closes what is open at the end of the text. -/
def finish? (s : Scanner) : Option (List Token) := do
  let s ← (s.closeBlocks (-1)).dropKey?
  return s.tokens.reverse

/-- Reads tokens up to the end of the text. Each takes at least one character. -/
def run? : Nat → Scanner → Option (List Token)
  | 0, _ => none
  | fuel + 1, s => do
    let s ← (skipGap (s.cursor.rest.length + 1) s).dropStaleKeys?
    let s := s.closeBlocks s.cursor.column
    if s.cursor.rest.isEmpty then s.finish? else run? fuel (← s.token?)

end Scanner

/-- The tokens of a text; none where it cannot be cut into tokens. -/
def Token.scan? (s : List Char) : Option (List Token) :=
  if s.all isPrintable then Scanner.run? (s.length + 1) (Scanner.start s) else none

end Atlas.Yaml
