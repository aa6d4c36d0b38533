import Atlas.Json.Printer
import Atlas.Yaml.Value

/-!
# Written YAML

The YAML text of plain data (`Data.toYaml`), with every item and member on a line of its own. A text
is written plain where that stands for nothing but itself, as a literal block where it has several
lines, and in quotes otherwise.
-/

namespace Atlas.Yaml

attribute [local instance (high)] instPowNat

/-! ## Styles of texts -/

/-- A character that need not be escaped. -/
def needsNoEscape (c : Char) : Bool :=
  let n := c.toNat
  n == 0x0A || (0x20 ≤ n && n ≤ 0x7E) || (0xA0 ≤ n && n ≤ 0xFFFD && n != 0xFEFF) || 0x10000 ≤ n

/-- Whether two characters that satisfy `p` and `q` stand side by side. -/
def hasPair (p q : Char → Bool) : List Char → Bool
  | a :: b :: r => (p a && q b) || hasPair p q (b :: r)
  | _ => false

/-- Whether a space stands at the end of a line, which only escapes keep. -/
def hasSpaceBeforeBreak (s : List Char) : Bool := hasPair (· == ' ') isBreak s

/-- Whether a line starts with a space, which quotes without escapes do not keep. -/
def hasSpaceAfterBreak (s : List Char) : Bool := hasPair isBreak (· == ' ') s

/-- A character with which no plain text starts. -/
def isLeadingMark (c : Char) : Bool :=
  ['#', ',', '[', ']', '{', '}', '&', '*', '!', '|', '>', '\'', '"', '%', '@', '\x60'].contains c

/-- Whether a colon ends a word. -/
def hasEndedColon : List Char → Bool
  | [] => false
  | c :: r => (c == ':' && atGap r) || hasEndedColon r

/-- Whether the text, written plain, would be read as something else than one text. -/
def hasMarks (s : List Char) : Bool :=
  Chars.startsWith "---".toList s || Chars.startsWith "...".toList s ||
    s.head?.any isLeadingMark || ((s.head? == some '?' || s.head? == some '-') && atGap s.tail) ||
    hasEndedColon s || hasPair (fun c => isBlank c || isBreak c) (· == '#') s

/-- Whether the text may be written plain. -/
def isPlain (s : List Char) : Bool :=
  let ends (p : Char → Bool) : Bool := s.head?.any p || s.getLast?.any p
  s.all needsNoEscape && !ends (· == ' ') && !s.any isBreak && !hasMarks s

/-- Whether the text may be written in quotes without escapes. -/
def isQuotable (s : List Char) : Bool :=
  s.all needsNoEscape && !hasSpaceBeforeBreak s && !hasSpaceAfterBreak s

/-- Whether the text may be written as a block. -/
def isBlock (s : List Char) : Bool :=
  s.all needsNoEscape && !hasSpaceBeforeBreak s && s.getLast? != some ' '

/-- Whether the text, written plain, stands for itself. -/
def meansItself (s : String) : Bool := Plain.meaning s = .text && !Plain.isPadded s.toList

/-- The style in which a text is written. -/
def styleOf (s : String) : ScalarStyle :=
  let cs := s.toList
  if cs.contains '\n' then if isBlock cs then .literal else .doubleQuoted
  else if meansItself s && isPlain cs then .plain
  else if isQuotable cs then .singleQuoted
  else .doubleQuoted

theorem styleOf_plain {s : String} (h : styleOf s = .plain) : Plain.meaning s = .text := by
  simp only [styleOf] at h
  split at h
  · split at h <;> cases h
  · split at h
    · rename_i hp
      simp only [meansItself, Bool.and_eq_true, decide_eq_true_eq] at hp
      exact hp.1.1
    · split at h <;> cases h

/-! ## Texts -/

/-- Blanks up to a column. -/
def spaces (n : Nat) : List Char := List.replicate n ' '

/-- The inside of single quotes. After a break the text goes on at column `indent`. -/
def writeSingle (indent : Nat) : Bool → List Char → List Char
  | afterBreak, [] => if afterBreak then spaces indent else []
  | afterBreak, c :: r =>
    if isBreak c then c :: writeSingle indent true r
    else
      (if afterBreak then spaces indent else []) ++ (if c = '\'' then ['\'', '\''] else [c]) ++
        writeSingle indent false r

/-- The number in `width` hexadecimal digits. -/
def hexText (width n : Nat) : List Char :=
  (List.range width).reverse.map fun i => (Json.hexDigit (n / 16 ^ i % 16)).toUpper

/-- A character inside double quotes. -/
def writeEscaped (c : Char) : List Char :=
  if needsNoEscape c && !isBreak c && c != '"' && c != '\\' then [c]
  else
    let short : List (Char × Char) :=
      [('\x00', '0'), ('\x07', 'a'), ('\x08', 'b'), ('\t', 't'), ('\n', 'n'), ('\x0b', 'v'),
        ('\x0c', 'f'), ('\r', 'r'), ('\x1b', 'e'), ('"', '"'), ('\\', '\\'), ('\u0085', 'N'),
        ('\u2028', 'L'), ('\u2029', 'P')]
    match short.lookup c with
    | some e => ['\\', e]
    | none =>
      let n := c.toNat
      if n ≤ 0xFF then '\\' :: 'x' :: hexText 2 n
      else if n ≤ 0xFFFF then '\\' :: 'u' :: hexText 4 n
      else '\\' :: 'U' :: hexText 8 n

/-- The lines of a block, each at column `indent`. -/
def writeLines (indent : Nat) : Bool → List Char → List Char
  | _, [] => []
  | atStart, c :: r =>
    if isBreak c then c :: writeLines indent true r
    else (if atStart then spaces indent else []) ++ c :: writeLines indent false r

/-- The marks of a block: its depth where it starts with a blank, and what becomes of the breaks at
its end. -/
def blockMarks (s : List Char) : List Char :=
  let depth := if s.head?.any fun c => c == ' ' || isBreak c then ['2'] else []
  let chomping := match s.reverse with
    | a :: b :: _ => if !isBreak a then ['-'] else if isBreak b then ['+'] else []
    | [a] => if isBreak a then ['+'] else ['-']
    | [] => ['-']
  depth ++ chomping

/-- A text in the style it needs, inside a collection at column `indent`, up to the next line. -/
def writeText (indent : Nat) (s : String) : String :=
  let cs := s.toList
  match styleOf s with
  | .singleQuoted => String.ofList ('\'' :: writeSingle (indent + 2) false cs ++ ['\'', '\n'])
  | .doubleQuoted => String.ofList ('"' :: cs.flatMap writeEscaped ++ ['"', '\n'])
  | .literal =>
    String.ofList <| '|' :: blockMarks cs ++ '\n' :: writeLines (indent + 2) true cs ++
      (if cs.getLast?.any isBreak then [] else ['\n'])
  | _ => s ++ "\n"

/-- A key on one line. -/
def writeKey (s : String) : String :=
  match styleOf s with
  | .singleQuoted => String.ofList ('\'' :: writeSingle 0 false s.toList ++ ['\''])
  | .doubleQuoted => String.ofList ('"' :: s.toList.flatMap writeEscaped ++ ['"'])
  | _ => s

/-- Whether a key stands on one line with its colon: if it is short and has no breaks. -/
def isSimpleKey (s : String) : Bool := !s.toList.any isBreak && s.utf8ByteSize ≤ 128

/-- Entries of a collection at column `indent`, the first of which stands there already. -/
def atColumn (indent : Nat) (entries : List String) : String :=
  String.intercalate (String.ofList (spaces indent)) entries

end Atlas.Yaml

namespace Atlas.Data

open Yaml

/-- A value on one line, or a text, inside a collection at column `indent`; none for a collection
that is not empty. -/
def yamlScalar? (indent : Nat) : Data → Option String
  | .null => some "null\n"
  | .bool b => some (if b then "true\n" else "false\n")
  | .number n => some (Value.numberText n ++ "\n")
  | .text s => some (writeText indent s)
  | .list [] => some "[]\n"
  | .record [] => some "\x7b\x7d\n"
  | _ => none

mutual

/-- A value that starts where the text is, the entries of a collection at column `indent`. -/
def yamlEntries (indent : Nat) : Data → String
  | .list ds => atColumn indent (yamlItems indent ds)
  | .record ms => atColumn indent (yamlMembers indent ms)
  | _ => ""

/-- The items of a sequence at column `indent`. -/
def yamlItems (indent : Nat) : List Data → List String
  | [] => []
  | d :: ds =>
    ("- " ++ match yamlScalar? indent d with
      | some s => s
      | none => yamlEntries (indent + 2) d) :: yamlItems indent ds

/-- The members of a mapping at column `indent`. The entries of a sequence stand at the column of
its key. -/
def yamlMembers (indent : Nat) : List (String × Data) → List String
  | [] => []
  | (k, d) :: ms =>
    (if isSimpleKey k then
      writeKey k ++ ":" ++
        match yamlScalar? indent d with
        | some s => " " ++ s
        | none =>
          let column := match d with
            | .record _ => indent + 2
            | _ => indent
          "\n" ++ String.ofList (spaces column) ++ yamlEntries column d
    else
      "? " ++ writeText indent k ++ String.ofList (spaces indent) ++ ": " ++
        match yamlScalar? indent d with
        | some s => s
        | none => yamlEntries (indent + 2) d) :: yamlMembers indent ms

end

/-- The tree as a document. -/
def toYaml (d : Data) : String := (yamlScalar? 0 d).getD (yamlEntries 0 d)

end Atlas.Data
