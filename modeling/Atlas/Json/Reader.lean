import Atlas.Data.Basic

/-!
# Read JSON

The tree of a JSON text (`Json.tree?`) and its plain data (`Json.read?`). Records keep all their
members, in the order of the text. A tree may hold numbers that are not finite and escapes that
stand for no character; data may not, and its lists and records may be nested at most `maxDepth`
deep.
-/

namespace Atlas.Json

attribute [local instance (high)] instPowNat

/-- How deep the lists and records of data may be nested. -/
def maxDepth : Nat := 127

/-- A JSON text as it is written. A number or a text that stands for nothing is kept as such. -/
inductive Tree where
  | null
  | bool (value : Bool)
  | number (value : Option Number)
  | text (value : Option String)
  | list (items : List Tree)
  | record (members : List (Option String × Tree))
  deriving Inhabited

/-- White space between the parts of a text. -/
def isSpace (c : Char) : Bool := c == ' ' || c == '\t' || c == '\n' || c == '\r'

/-- The text without leading white space. -/
def skipSpace (s : List Char) : List Char := s.dropWhile isSpace

/-- An ASCII digit. -/
def isDigit (c : Char) : Bool := '0' ≤ c && c ≤ '9'

/-! ## Numbers -/

/-- The greatest integer that is held exactly. -/
def maxInt : Nat := 2 ^ (64 : Nat) - 1

/-- Appends digits to an integer while it can be held. Gives the integer and how many digits were
left over. -/
def accumulate : Nat → List Char → Nat × Nat
  | n, [] => (n, 0)
  | n, c :: r =>
    let m := n * 10 + (c.toNat - 48)
    if m ≤ maxInt then accumulate m r else (n, (c :: r).length)

/-- `x · 10^exponent`, by division where the exponent is negative; none where it is too large. -/
def scale? : Nat → Binary64 → Int → Option Binary64
  | 0, x, _ => some x
  | fuel + 1, x, e =>
    if e.natAbs ≤ 308 then
      let p := Binary64.ofDecimal false 1 e.natAbs
      if 0 ≤ e then
        let y := x.mul p
        if y.isFinite then some y else none
      else some (x.div p)
    else if x.significand = 0 then some x
    else if 0 ≤ e then none
    else scale? fuel (x.div (Binary64.ofDecimal false 1 308)) (e + 308)

/-- A number with a fraction or an exponent. The digits that are held exactly are rounded first and
scaled by the power of ten then. -/
def float? (negative : Bool) (whole fraction : List Char) (exponent : Int) : Option Number := do
  let (n, excess) := accumulate 0 whole
  let (n, e) :=
    if excess = 0 then
      let (n, left) := accumulate n fraction
      (n, -((fraction.length - left : Nat) : Int))
    else
      let (n, left) := accumulate n fraction
      (n, (excess : Int) - ((fraction.length - left : Nat) : Int))
  -- an exponent this far out decides the number alone
  let e := max (-1000000) (min 1000000 (e + exponent))
  let x ← scale? 4 (Binary64.ofDecimal false n 0) e
  return .float (if negative then ⟨x.bits ^^^ 0x8000000000000000⟩ else x)

/-- The digits at the start of the text. -/
def digits (s : List Char) : List Char × List Char := (s.takeWhile isDigit, s.dropWhile isDigit)

/-- The exponent at the start of the text, if one stands there. -/
def exponent? : List Char → Option (Option Int × List Char)
  | c :: r =>
    if c = 'e' ∨ c = 'E' then
      let (negative, r) := match r with
        | '-' :: r => (true, r)
        | '+' :: r => (false, r)
        | r => (false, r)
      match digits r with
      | ([], _) => none
      | (ds, r) =>
        let n : Int := (ds.foldl (fun n c => n * 10 + (c.toNat - 48)) 0 : Nat)
        some (some (if negative then -n else n), r)
    else some (none, c :: r)
  | [] => some (none, [])

/-- The fraction at the start of the text, if one stands there. -/
def fraction? : List Char → Option (Option (List Char) × List Char)
  | '.' :: r =>
    match digits r with
    | ([], _) => none
    | (ds, r) => some (some ds, r)
  | r => some (none, r)

/-- The number of an optional minus sign and its digits, if it is finite. -/
def number? (negative : Bool) (s : List Char) : Option (Option Number × List Char) := do
  let (whole, r) := digits s
  if whole = [] ∨ (whole.head? = some '0' ∧ whole.length ≠ 1) then none
  let (fraction, r) ← fraction? r
  let (exponent, r) ← exponent? r
  match fraction, exponent with
  | none, none =>
    let (n, excess) := accumulate 0 whole
    if excess = 0 ∧ ¬ negative then return (some (.int n), r)
    else if excess = 0 ∧ 0 < n ∧ n ≤ 2 ^ (63 : Nat) then return (some (.int (-n)), r)
    else return (float? negative whole [] 0, r)
  | _, _ => return (float? negative whole (fraction.getD []) (exponent.getD 0), r)

/-! ## Texts -/

/-- The value of a hexadecimal digit. -/
def hexValue? (c : Char) : Option Nat :=
  if '0' ≤ c ∧ c ≤ '9' then some (c.toNat - 48)
  else if 'a' ≤ c ∧ c ≤ 'f' then some (c.toNat - 87)
  else if 'A' ≤ c ∧ c ≤ 'F' then some (c.toNat - 55)
  else none

/-- Four hexadecimal digits. -/
def hex4? : List Char → Option (Nat × List Char)
  | a :: b :: c :: d :: r => do
    return ((((← hexValue? a) * 16 + (← hexValue? b)) * 16 + (← hexValue? c)) * 16 +
      (← hexValue? d), r)
  | _ => none

/-- The character of a `\u` escape, if there is one, and what follows the escape. A character beyond
the basic plane is written as two escapes. -/
def unicodeEscape? (s : List Char) : Option (Option Char × List Char) := do
  let (n, r) ← hex4? s
  let second := match r with
    | '\\' :: 'u' :: r => hex4? r
    | _ => none
  if 0xD800 ≤ n ∧ n < 0xDC00 then
    match second with
    | some (m, r') =>
      if 0xDC00 ≤ m ∧ m < 0xE000 then
        return (some (Char.ofNat (0x10000 + (n - 0xD800) * 0x400 + (m - 0xDC00))), r')
      else return (none, r)
    | none => return (none, r)
  else if 0xDC00 ≤ n ∧ n < 0xE000 then return (none, r)
  else return (some (Char.ofNat n), r)

/-- The character of an escape of one letter. -/
def shortEscape? (c : Char) : Option Char :=
  match c with
  | '"' => some '"'
  | '\\' => some '\\'
  | '/' => some '/'
  | 'b' => some '\x08'
  | 'f' => some '\x0c'
  | 'n' => some '\n'
  | 'r' => some '\r'
  | 't' => some '\t'
  | _ => none

/-- The rest of a quoted text; `acc` holds the characters read, the last one first, unless an escape
stood for none. -/
def quoted? : Nat → Option (List Char) → List Char → Option (Option String × List Char)
  | 0, _, _ => none
  | fuel + 1, acc, s =>
    match s with
    | [] => none
    | '"' :: r => some (acc.map fun cs => String.ofList cs.reverse, r)
    | '\\' :: 'u' :: r =>
      match unicodeEscape? r with
      | some (some c, r) => quoted? fuel (acc.map (c :: ·)) r
      | some (none, r) => quoted? fuel none r
      | none => none
    | '\\' :: c :: r =>
      match shortEscape? c with
      | some c => quoted? fuel (acc.map (c :: ·)) r
      | none => none
    | c :: r =>
      if c.toNat < 32 ∨ c = '\\' then none else quoted? fuel (acc.map (c :: ·)) r

/-! ## Trees -/

/-- What follows a word, where the text starts with it. -/
def keyword? (word : List Char) (value : Tree) (s : List Char) : Option (Tree × List Char) :=
  if word.isPrefixOf s then some (value, s.drop word.length) else none

mutual

/-- The tree at the start of the text. -/
def value? : Nat → List Char → Option (Tree × List Char)
  | 0, _ => none
  | fuel + 1, s =>
    match skipSpace s with
    | [] => none
    | '"' :: r => (quoted? (r.length + 1) (some []) r).map fun (t, r) => (.text t, r)
    | '[' :: r =>
      match skipSpace r with
      | ']' :: r => some (.list [], r)
      | r => (items? fuel [] r).map fun (ts, r) => (.list ts, r)
    | '{' :: r =>
      match skipSpace r with
      | '}' :: r => some (.record [], r)
      | r => (members? fuel [] r).map fun (ts, r) => (.record ts, r)
    | '-' :: r => (number? true r).map fun (n, r) => (.number n, r)
    | 'n' :: r => keyword? "ull".toList .null r
    | 't' :: r => keyword? "rue".toList (.bool true) r
    | 'f' :: r => keyword? "alse".toList (.bool false) r
    | c :: r => (number? false (c :: r)).map fun (n, r) => (.number n, r)

/-- The items up to the closing bracket; `acc` holds those read, the last one first. -/
def items? : Nat → List Tree → List Char → Option (List Tree × List Char)
  | 0, _, _ => none
  | fuel + 1, acc, s =>
    match value? fuel s with
    | none => none
    | some (t, r) =>
      match skipSpace r with
      | ',' :: r => items? fuel (t :: acc) r
      | ']' :: r => some ((t :: acc).reverse, r)
      | _ => none

/-- The members up to the closing bracket; `acc` holds those read, the last one first. -/
def members? : Nat → List (Option String × Tree) → List Char →
    Option (List (Option String × Tree) × List Char)
  | 0, _, _ => none
  | fuel + 1, acc, s =>
    match skipSpace s with
    | '"' :: r =>
      match quoted? (r.length + 1) (some []) r with
      | none => none
      | some (name, r) =>
        match skipSpace r with
        | ':' :: r =>
          match value? fuel r with
          | none => none
          | some (t, r) =>
            match skipSpace r with
            | ',' :: r => members? fuel ((name, t) :: acc) r
            | '}' :: r => some (((name, t) :: acc).reverse, r)
            | _ => none
        | _ => none
    | _ => none

end

/-- The tree of a JSON text. -/
def tree? (s : String) : Option Tree := do
  let cs := s.toList
  let (t, r) ← value? (cs.length + 1) cs
  if skipSpace r = [] then return t else none

/-! ## Data -/

mutual

/-- The data of a tree with at most `depth` levels of lists and records. -/
def Tree.toData? (depth : Nat) : Tree → Option Data
  | .null => some .null
  | .bool b => some (.bool b)
  | .number n => n.map .number
  | .text s => s.map .text
  | .list ts => if depth = 0 then none else (dataItems? (depth - 1) ts).map .list
  | .record ms => if depth = 0 then none else (dataMembers? (depth - 1) ms).map .record

/-- The data of some trees. -/
def dataItems? (depth : Nat) : List Tree → Option (List Data)
  | [] => some []
  | t :: ts =>
    match t.toData? depth, dataItems? depth ts with
    | some d, some ds => some (d :: ds)
    | _, _ => none

/-- The data of some members. -/
def dataMembers? (depth : Nat) : List (Option String × Tree) → Option (List (String × Data))
  | [] => some []
  | (name, t) :: ts =>
    match name, t.toData? depth, dataMembers? depth ts with
    | some n, some d, some ds => some ((n, d) :: ds)
    | _, _, _ => none

end

/-- The plain data of a JSON text. -/
def read? (s : String) : Option Data := do (← tree? s).toData? maxDepth

end Atlas.Json
