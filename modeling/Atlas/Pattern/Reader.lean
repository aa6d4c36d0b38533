import Atlas.Pattern.Basic
import Atlas.Chars.Split

/-!
# Written patterns

The pattern of a text (`Pattern.read?`), in the usual notation: alternatives, groups, repetitions,
classes with set operations, anchors and the flags `i`, `m`, `s`, `U`, `x` and `u`. There is no
pattern for a text that is malformed, that looks around or back, or whose pattern would be larger
than `maxWeight`.
-/

namespace Atlas.Pattern

attribute [local instance (high)] instPowNat

/-- The greatest weight of a pattern. -/
def maxWeight : Nat := 327680

/-- How deep groups and classes may be nested. -/
def maxNesting : Nat := 250

/-- The flags in force. -/
structure Flags where
  ignoreCase : Bool := false
  multiLine : Bool := false
  dotAll : Bool := false
  swapGreed : Bool := false
  extended : Bool := false
  unicode : Bool := true

/-- What is left of the text, the names of the groups so far, and the flags in force. -/
structure ReadState where
  rest : List Char
  names : List String := []
  flags : Flags := {}

/-- A step of reading, which may fail. -/
abbrev Read := StateT ReadState Option

namespace Read

/-- The next character, if there is one. -/
def peek? : Read (Option Char) := do return (← get).rest.head?

/-- What is left of the text. -/
def rest : Read (List Char) := do return (← get).rest

/-- Sets what is left of the text. -/
def setRest (r : List Char) : Read Unit := modify fun s => { s with rest := r }

/-- Takes the next character. -/
def take : Read Char := do
  match (← get).rest with
  | c :: r => setRest r; return c
  | [] => failure

/-- Takes the next characters if they are these. -/
def takeText? (t : String) : Read Bool := do
  let r ← rest
  if t.toList.isPrefixOf r then
    setRest (r.drop t.length)
    return true
  else return false

/-- The flags in force. -/
def flags : Read Flags := do return (← get).flags

/-- Passes over blanks. -/
def skipBlanks : Read Unit := do setRest ((← rest).dropWhile Chars.isBlank)

/-- Passes over blanks and remarks, where the flags allow them between the parts of a pattern. -/
def skipSpace : Read Unit := do
  if (← flags).extended then
    let n := (← rest).length
    setRest (go (n + 1) (← rest))
where
  go : Nat → List Char → List Char
    | 0, s => s
    | fuel + 1, s =>
      match s.dropWhile Chars.isBlank with
      | '#' :: r => go fuel (r.dropWhile (· ≠ '\n'))
      | r => r

end Read

open Read

/-! ## Characters -/

/-- A hexadecimal digit. -/
def hexValue? (c : Char) : Option Nat :=
  if '0' ≤ c ∧ c ≤ '9' then some (c.toNat - 48)
  else if 'a' ≤ c ∧ c ≤ 'f' then some (c.toNat - 87)
  else if 'A' ≤ c ∧ c ≤ 'F' then some (c.toNat - 55)
  else none

/-- The character of hexadecimal digits. -/
def hexChar? (ds : List Char) : Option Char := do
  let vs ← ds.mapM hexValue?
  let n := vs.foldl (fun n v => n * 16 + v) 0
  if n.isValidChar then return Char.ofNat n else none

/-- The character of an escape with `n` hexadecimal digits or with any number in braces. -/
def readHex (n : Nat) : Read Char := do
  match ← rest with
  | '{' :: r =>
    let ds := r.takeWhile (· ≠ '}')
    match r.dropWhile (· ≠ '}') with
    | _ :: r =>
      if ds = [] then failure
      setRest r
      match hexChar? ds with
      | some c => return c
      | none => failure
    | [] => failure
  | r =>
    let ds := r.take n
    if ds.length < n then failure
    setRest (r.drop n)
    match hexChar? ds with
    | some c => return c
    | none => failure

/-- The sets of a general category, by its short and its long name in lowercase. -/
def categories : List (List String × List Chars.Spans) :=
  let lu := Chars.Category.uppercaseLetter
  let ll := Chars.Category.lowercaseLetter
  let lt := Chars.Category.titlecaseLetter
  let lm := Chars.Category.modifierLetter
  let lo := Chars.Category.otherLetter
  let mn := Chars.Category.nonspacingMark
  let mc := Chars.Category.spacingMark
  let me := Chars.Category.enclosingMark
  let nd := Chars.Category.decimalNumber
  let nl := Chars.Category.letterNumber
  let no := Chars.Category.otherNumber
  let pc := Chars.Category.connectorPunctuation
  let pd := Chars.Category.dashPunctuation
  let ps := Chars.Category.openPunctuation
  let pe := Chars.Category.closePunctuation
  let pi := Chars.Category.initialPunctuation
  let pf := Chars.Category.finalPunctuation
  let po := Chars.Category.otherPunctuation
  let sm := Chars.Category.mathSymbol
  let sc := Chars.Category.currencySymbol
  let sk := Chars.Category.modifierSymbol
  let so := Chars.Category.otherSymbol
  let zs := Chars.Category.spaceSeparator
  let zl := Chars.Category.lineSeparator
  let zp := Chars.Category.paragraphSeparator
  let cc := Chars.Category.control
  let cf := Chars.Category.format
  let co := Chars.Category.privateUse
  [(["l", "letter"], [lu, ll, lt, lm, lo]), (["lc", "casedletter"], [lu, ll, lt]),
    (["lu", "uppercaseletter"], [lu]), (["ll", "lowercaseletter"], [ll]),
    (["lt", "titlecaseletter"], [lt]), (["lm", "modifierletter"], [lm]),
    (["lo", "otherletter"], [lo]), (["m", "mark", "combiningmark"], [mn, mc, me]),
    (["mn", "nonspacingmark"], [mn]), (["mc", "spacingmark"], [mc]),
    (["me", "enclosingmark"], [me]), (["n", "number"], [nd, nl, no]),
    (["nd", "decimalnumber", "digit"], [nd]), (["nl", "letternumber"], [nl]),
    (["no", "othernumber"], [no]), (["p", "punctuation", "punct"], [pc, pd, ps, pe, pi, pf, po]),
    (["pc", "connectorpunctuation"], [pc]), (["pd", "dashpunctuation"], [pd]),
    (["ps", "openpunctuation"], [ps]), (["pe", "closepunctuation"], [pe]),
    (["pi", "initialpunctuation"], [pi]), (["pf", "finalpunctuation"], [pf]),
    (["po", "otherpunctuation"], [po]), (["s", "symbol"], [sm, sc, sk, so]),
    (["sm", "mathsymbol"], [sm]), (["sc", "currencysymbol"], [sc]),
    (["sk", "modifiersymbol"], [sk]), (["so", "othersymbol"], [so]),
    (["z", "separator"], [zs, zl, zp]), (["zs", "spaceseparator"], [zs]),
    (["zl", "lineseparator"], [zl]), (["zp", "paragraphseparator"], [zp]),
    (["cc", "control", "cntrl"], [cc]), (["cf", "format"], [cf]), (["co", "privateuse"], [co])]

/-- The set of a property. Its name is read without case, spaces, hyphens and underscores. -/
def property? (name : String) : Option CharSet :=
  let key := String.ofList ((name.toList.filter fun c => c ≠ ' ' ∧ c ≠ '-' ∧ c ≠ '_').map
    Char.toLower)
  let key := match key.toList with
    | 'i' :: 's' :: r => if r.length > 1 then String.ofList r else key
    | _ => key
  match categories.find? fun (names, _) => names.contains key with
  | some (_, ss) => some (.unions (ss.map .spans))
  | none =>
    match key with
    | "any" => some .any
    | "ascii" => some (.range 0 0x7F)
    | "assigned" =>
      some (.unions (.range 0xD800 0xDFFF :: categories.flatMap fun (_, ss) => ss.map .spans))
    | "alphabetic" | "alpha" => some .alphabetic
    | "whitespace" | "wspace" | "space" => some .space
    | "uppercase" | "upper" =>
      some (.union (.spans Chars.Category.uppercaseLetter) (.spans ⟨[(0x2160, 0x216F),
        (0x24B6, 0x24CF), (0x1F130, 0x1F149), (0x1F150, 0x1F169), (0x1F170, 0x1F189)], []⟩))
    | "lowercase" | "lower" => some (.spans Chars.Category.lowercaseLetter)
    | "greek" | "grek" =>
      some (.spans ⟨[(0x370, 0x373), (0x375, 0x377), (0x37A, 0x37D), (0x37F, 0x37F), (0x384, 0x384),
        (0x386, 0x386), (0x388, 0x38A), (0x38C, 0x38C), (0x38E, 0x3A1), (0x3A3, 0x3E1),
        (0x3F0, 0x3FF), (0x1D26, 0x1D2A), (0x1F00, 0x1FFE), (0x2126, 0x2126)], []⟩)
    | "cyrillic" | "cyrl" =>
      some (.spans ⟨[(0x400, 0x484), (0x487, 0x52F), (0x1C80, 0x1C8A), (0x1D2B, 0x1D2B),
        (0x1D78, 0x1D78), (0x2DE0, 0x2DFF), (0xA640, 0xA69F)], []⟩)
    | "latin" | "latn" =>
      some (.spans ⟨[(0x41, 0x5A), (0x61, 0x7A), (0xAA, 0xAA), (0xBA, 0xBA), (0xC0, 0xD6),
        (0xD8, 0xF6), (0xF8, 0x2B8), (0x1D00, 0x1D25), (0x1E00, 0x1EFF), (0x212A, 0x212B),
        (0x2C60, 0x2C7F), (0xA722, 0xA787), (0xA78B, 0xA7CD), (0xFF21, 0xFF3A),
        (0xFF41, 0xFF5A)], []⟩)
    | "han" | "hani" =>
      some (.spans ⟨[(0x2E80, 0x2FD5), (0x3005, 0x3005), (0x3007, 0x3007), (0x3021, 0x3029),
        (0x3038, 0x303B), (0x3400, 0x4DBF), (0x4E00, 0x9FFF), (0xF900, 0xFAD9),
        (0x20000, 0x323AF)], []⟩)
    | _ => none

/-- The set of a property escape, after its letter. -/
def readProperty : Read CharSet := do
  match ← rest with
  | '{' :: r =>
    let name := r.takeWhile (· ≠ '}')
    match r.dropWhile (· ≠ '}') with
    | [] => failure
    | _ :: r =>
      setRest r
      let (negated, name) := match name with
        | '^' :: n => (true, n)
        | n => (false, n)
      -- a property and its value may stand beside an equals sign
      let value := match Chars.cut? ['='] name with
        | some (_, v) => v
        | none => name
      match property? (String.ofList value) with
      | some s => return if negated then .compl s else s
      | none => failure
  | c :: r =>
    setRest r
    match property? (String.singleton c) with
    | some s => return s
    | none => failure
  | [] => failure

/-- The set with its case variants, where the flags ask for them. -/
def withCase (f : Flags) (s : CharSet) : CharSet := if f.ignoreCase then .ignoringCase s else s

/-- What an escape stands for. -/
inductive Escape where
  | char (c : Char)
  | set (s : CharSet)
  | assertion (a : Assertion)

/-- The class of a letter, and its ASCII part where the flags ask for that. -/
def letterClass (f : Flags) (c : Char) : CharSet :=
  let s : CharSet :=
    if c = 'd' ∨ c = 'D' then (if f.unicode then .digit else .range 48 57)
    else if c = 's' ∨ c = 'S' then
      (if f.unicode then .space else .union (.range 9 13) (.char ' '))
    else if f.unicode then .word
    else .unions [.range 48 57, .range 65 90, .range 97 122, .char '_']
  if c.isUpper then .compl s else s

/-- The names of the boundaries that stand in braces. -/
def namedBoundary? (name : String) : Option Assertion :=
  match name with
  | "start" => some .wordStart
  | "end" => some .wordEnd
  | "start-half" => some .wordStartHalf
  | "end-half" => some .wordEndHalf
  | _ => none

/-- What the escape after a backslash stands for. -/
def readEscape : Read Escape := do
  let f ← flags
  let c ← take
  if c = 'd' ∨ c = 'D' ∨ c = 's' ∨ c = 'S' ∨ c = 'w' ∨ c = 'W' then
    return .set (letterClass f c)
  else if c = 'p' then return .set (withCase f (← readProperty))
  else if c = 'P' then return .set (.compl (withCase f (← readProperty)))
  else if c = 'x' then return .char (← readHex 2)
  else if c = 'u' then return .char (← readHex 4)
  else if c = 'U' then return .char (← readHex 8)
  else if c = 'a' then return .char '\x07'
  else if c = 'f' then return .char '\x0c'
  else if c = 't' then return .char '\t'
  else if c = 'n' then return .char '\n'
  else if c = 'r' then return .char '\r'
  else if c = 'v' then return .char '\x0b'
  else if c = 'A' then return .assertion .textStart
  else if c = 'z' then return .assertion .textEnd
  else if c = 'B' then return .assertion .noWordBoundary
  else if c = '<' then return .assertion .wordStart
  else if c = '>' then return .assertion .wordEnd
  else if c = 'b' then
    match ← rest with
    | '{' :: d :: r =>
      if Chars.isAsciiLetter d ∨ d = '-' then
        let name := (d :: r).takeWhile fun c => Chars.isAsciiLetter c || c == '-'
        match (d :: r).drop name.length with
        | '}' :: r =>
          match namedBoundary? (String.ofList name) with
          | some a => setRest r; return .assertion a
          | none => failure
        | _ => failure
      else return .assertion .wordBoundary
    | _ => return .assertion .wordBoundary
  else if c.toNat < 128 ∧ ¬ Chars.isAsciiAlphanumeric c then return .char c
  else failure

/-! ## Classes -/

/-- The named ASCII classes. -/
def asciiClass? (name : String) : Option CharSet :=
  let lower := CharSet.range 97 122
  let upper := CharSet.range 65 90
  let digits := CharSet.range 48 57
  match name with
  | "alnum" => some (.unions [digits, upper, lower])
  | "alpha" => some (.unions [upper, lower])
  | "ascii" => some (.range 0 127)
  | "blank" => some (.unions [.char '\t', .char ' '])
  | "cntrl" => some (.unions [.range 0 31, .range 127 127])
  | "digit" => some digits
  | "graph" => some (.range 33 126)
  | "lower" => some lower
  | "print" => some (.range 32 126)
  | "punct" => some (.unions [.range 33 47, .range 58 64, .range 91 96, .range 123 126])
  | "space" => some (.unions [.range 9 13, .char ' '])
  | "upper" => some upper
  | "word" => some (.unions [digits, upper, lower, .char '_'])
  | "xdigit" => some (.unions [digits, .range 65 70, .range 97 102])
  | _ => none

/-- A named ASCII class in brackets and colons, if one stands here. -/
def readAsciiClass? : Read (Option CharSet) := do
  match ← rest with
  | '[' :: ':' :: r =>
    let (negated, r) := match r with
      | '^' :: r => (true, r)
      | r => (false, r)
    let name := r.takeWhile (· ≠ ':')
    match r.drop name.length with
    | ':' :: ']' :: r =>
      match asciiClass? (String.ofList name) with
      | some s =>
        setRest r
        let s := withCase (← flags) s
        return some (if negated then .compl s else s)
      | none => return none
    | _ => return none
  | _ => return none

/-- An operation on sets. -/
inductive SetOperation where
  | inter
  | diff
  | symmDiff

/-- The result of an operation. -/
def SetOperation.apply : SetOperation → CharSet → CharSet → CharSet
  | inter => .inter
  | diff => .diff
  | symmDiff => .symmDiff

/-- An operation on sets, if one stands here. -/
def readSetOperation? : Read (Option SetOperation) := do
  if ← takeText? "&&" then return some .inter
  else if ← takeText? "--" then return some .diff
  else if ← takeText? "~~" then return some .symmDiff
  else return none

/-- An end of a range, or a set. -/
def readClassAtom : Read Escape := do
  match ← take with
  | '\\' =>
    match ← readEscape with
    | .assertion _ => failure
    | e => return e
  | c => return .char c

mutual

/-- The items of a class up to its closing bracket. `left` is the operand before the last operation
with that operation, `acc` what was read since. -/
def readClassItems : Nat → Nat → Option (CharSet × SetOperation) → CharSet → Read CharSet
  | 0, _, _, _ => failure
  | fuel + 1, depth, left, acc => do
    skipSpace
    match ← rest with
    | [] => failure
    | ']' :: r =>
      setRest r
      return match left with
        | some (a, op) => op.apply a acc
        | none => acc
    | '[' :: r =>
      match ← readAsciiClass? with
      | some s => readClassItems fuel depth left (.union acc s)
      | none =>
        setRest r
        match depth with
        | 0 => failure
        | d + 1 => do
          let s ← readClass fuel d
          readClassItems fuel depth left (.union acc s)
    | c :: _ =>
      match ← readSetOperation? with
      | some op =>
        let a := match left with
          | some (a, op) => op.apply a acc
          | none => acc
        readClassItems fuel depth (some (a, op)) .nothing
      | none =>
        let f ← flags
        match ← readClassAtom with
        | .set s => do
          skipSpace
          readClassItems fuel depth left (.union acc s)
        | .assertion _ => failure
        | .char lo => do
          skipSpace
          match ← rest with
          | '-' :: ']' :: _ => readClassItems fuel depth left (.union acc (withCase f (.char lo)))
          | '-' :: '-' :: _ => readClassItems fuel depth left (.union acc (withCase f (.char lo)))
          | '-' :: r => do
            setRest r
            skipSpace
            match ← readClassAtom with
            | .char hi =>
              if hi < lo then failure
              readClassItems fuel depth left
                (.union acc (withCase f (.range lo.toNat hi.toNat)))
            | _ => failure
          | _ =>
            let _ := c
            readClassItems fuel depth left (.union acc (withCase f (.char lo)))

/-- A class after its opening bracket. A closing bracket or hyphens that come first stand for
themselves. -/
def readClass : Nat → Nat → Read CharSet
  | 0, _ => failure
  | fuel + 1, depth => do
    skipSpace
    let negated ← takeText? "^"
    skipSpace
    let r ← rest
    let hyphens := r.takeWhile (· = '-')
    let mut acc := CharSet.nothing
    if hyphens ≠ [] then
      setRest (r.drop hyphens.length)
      acc := .char '-'
      skipSpace
    else if r.head? = some ']' then
      setRest (r.drop 1)
      acc := .char ']'
    let s ← readClassItems fuel depth none acc
    return if negated then .compl s else s

end

/-! ## Groups and flags -/

/-- The flags after the letters at the start of the text, which end before `:` or `)`. -/
def readFlags : Nat → Bool → List Char → Flags → Read Flags
  | 0, _, _, _ => failure
  | fuel + 1, on, seen, f => do
    match ← peek? with
    | none => failure
    | some c =>
      if c = ':' ∨ c = ')' then
        -- a hyphen has to be followed by a flag
        if seen.head? = some '-' then failure
        return f
      discard take
      if seen.contains c then failure
      match c with
      | '-' => readFlags fuel false ('-' :: seen) f
      | 'i' => readFlags fuel on (c :: seen) { f with ignoreCase := on }
      | 'm' => readFlags fuel on (c :: seen) { f with multiLine := on }
      | 's' => readFlags fuel on (c :: seen) { f with dotAll := on }
      | 'U' => readFlags fuel on (c :: seen) { f with swapGreed := on }
      | 'x' => readFlags fuel on (c :: seen) { f with extended := on }
      | 'u' => readFlags fuel on (c :: seen) { f with unicode := on }
      | 'R' => readFlags fuel on (c :: seen) f
      | _ => failure

/-- The name of a group up to the closing angle bracket. -/
def readGroupName : Read String := do
  let r ← rest
  let name := r.takeWhile (· ≠ '>')
  let first (c : Char) : Bool := c == '_' || Chars.isAlphabetic c
  let later (c : Char) : Bool :=
    c == '_' || c == '.' || c == '[' || c == ']' || Chars.isAlphanumeric c
  match name, r.drop name.length with
  | c :: cs, _ :: r =>
    if !first c || !cs.all later then failure
    setRest r
    let n := String.ofList name
    if (← get).names.contains n then failure
    modify fun s => { s with names := n :: s.names }
    return n
  | _, _ => failure

/-- A decimal number, with blanks around it. -/
def readDecimal : Read Nat := do
  skipBlanks
  let r ← rest
  let ds := r.takeWhile Chars.isAsciiDigit
  if ds = [] then failure
  setRest (r.drop ds.length)
  skipBlanks
  let n := ds.foldl (fun n c => n * 10 + (c.toNat - 48)) 0
  if n < 2 ^ (32 : Nat) then return n else failure

/-- The bounds of a repetition in braces, after the opening one. -/
def readBounds : Read (Nat × Option Nat) := do
  skipSpace
  let min ← readDecimal
  skipSpace
  if ← takeText? "," then
    skipSpace
    if (← peek?) = some '}' then
      discard take
      return (min, none)
    let max ← readDecimal
    skipSpace
    if ← takeText? "\x7d" then
      if max < min then failure
      return (min, some max)
    failure
  else if ← takeText? "\x7d" then return (min, some min)
  else failure

/-- One character as a pattern. -/
def literal (f : Flags) (c : Char) : Pattern := .one (withCase f (.char c))

/-- The pattern of what was read in sequence, the last part first. -/
def sequence : List Pattern → Pattern
  | [] => .empty
  | [p] => p
  | p :: ps => .seq (sequence ps) p

mutual

/-- The alternatives up to a closing bracket or the end of the text. -/
def readAlternatives : Nat → Nat → Read Pattern
  | 0, _ => failure
  | fuel + 1, depth => do
    let a ← readSequence fuel depth []
    if ← takeText? "|" then
      let b ← readAlternatives fuel depth
      return .alt a b
    else return a

/-- One alternative. `acc` holds the parts read, the last one first. -/
def readSequence : Nat → Nat → List Pattern → Read Pattern
  | 0, _, _ => failure
  | fuel + 1, depth, acc => do
    skipSpace
    let f ← flags
    match ← rest with
    | [] => return sequence acc
    | '|' :: _ => return sequence acc
    | ')' :: _ => return sequence acc
    | '(' :: r => do
      setRest r
      match ← readGroup fuel depth with
      | some p => readSequence fuel depth (p :: acc)
      | none =>
        -- flags for the rest of the group: nothing here that could be repeated
        skipSpace
        match ← rest with
        | '*' :: _ => failure
        | '+' :: _ => failure
        | '?' :: _ => failure
        | '{' :: _ => failure
        | _ => readSequence fuel depth acc
    | '[' :: r => do
      setRest r
      let s ← readClass fuel depth
      readSequence fuel depth (.one s :: acc)
    | '\\' :: r => do
      setRest r
      match ← readEscape with
      | .char c => readSequence fuel depth (literal f c :: acc)
      | .set s => readSequence fuel depth (.one s :: acc)
      | .assertion a => readSequence fuel depth (.assert a :: acc)
    | '.' :: r => do
      setRest r
      readSequence fuel depth
        (.one (if f.dotAll then .any else .compl (.char '\n')) :: acc)
    | '^' :: r => do
      setRest r
      readSequence fuel depth (.assert (if f.multiLine then .lineStart else .textStart) :: acc)
    | '$' :: r => do
      setRest r
      readSequence fuel depth (.assert (if f.multiLine then .lineEnd else .textEnd) :: acc)
    | '*' :: r => readRepeat fuel depth f 0 none r acc
    | '+' :: r => readRepeat fuel depth f 1 none r acc
    | '?' :: r => readRepeat fuel depth f 0 (some 1) r acc
    | '{' :: r => do
      setRest r
      if acc = [] then failure
      let (min, max) ← readBounds
      readRepeat fuel depth f min max (← rest) acc
    | c :: r => do
      setRest r
      readSequence fuel depth (literal f c :: acc)

/-- A repetition of the part read last, after its bounds. -/
def readRepeat : Nat → Nat → Flags → Nat → Option Nat → List Char → List Pattern → Read Pattern
  | 0, _, _, _, _, _, _ => failure
  | fuel + 1, depth, f, min, max, r, acc => do
    match acc with
    | [] => failure
    | p :: ps =>
      setRest r
      let lazily ← takeText? "?"
      readSequence fuel depth (.repeated (lazily == f.swapGreed) min max p :: ps)

/-- A group after its opening bracket, or none where it only sets flags. -/
def readGroup : Nat → Nat → Read (Option Pattern)
  | _, 0 => failure
  | 0, _ => failure
  | fuel + 1, depth + 1 => do
    let outer ← flags
    match ← rest with
    | '?' :: 'P' :: '<' :: r => do
      setRest r
      let name ← readGroupName
      return some (.group name (← readBody fuel depth outer))
    | '?' :: '<' :: c :: r => do
      if c = '=' ∨ c = '!' then failure
      setRest (c :: r)
      let name ← readGroupName
      return some (.group name (← readBody fuel depth outer))
    | '?' :: r => do
      setRest r
      let inner ← readFlags 16 true [] outer
      match ← take with
      | ')' =>
        if r.head? = some ')' then failure
        modify fun s => { s with flags := inner }
        return none
      | _ =>
        modify fun s => { s with flags := inner }
        return some (← readBody fuel depth outer)
    | _ => return some (← readBody fuel depth outer)

/-- The alternatives of a group and its closing bracket, after which the flags are those from
outside again. -/
def readBody : Nat → Nat → Flags → Read Pattern
  | 0, _, _ => failure
  | fuel + 1, depth, outer => do
    let p ← readAlternatives fuel depth
    if ← takeText? ")" then
      modify fun s => { s with flags := outer }
      return p
    else failure

end

/-- The pattern of a text. -/
def read? (s : String) : Option Pattern := do
  let cs := s.toList
  -- each step reads a character or ends an alternative, a group or a class
  let (p, st) ← (readAlternatives (4 * cs.length + 8) maxNesting).run { rest := cs }
  if st.rest ≠ [] ∨ p.weight > maxWeight then none else return p

end Atlas.Pattern
