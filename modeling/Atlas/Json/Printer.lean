import Atlas.Data.Basic
import Atlas.Text

/-!
# Written JSON

The JSON text of plain data: on one line without blanks (`Data.toJson`), or with every item and
member on a line of its own, indented by two columns per level (`Data.toPrettyJson`).
-/

namespace Atlas

namespace Json

/-- A number in JSON has a signed exponent. Those without a decimal form are written as nothing. -/
def layout : Binary64.Layout := ⟨"e+", "null", "null", "null"⟩

/-- The text of a number. -/
def numberText : Number → String
  | .int i => toString i
  | .float x => x.text layout

/-- A hexadecimal digit. -/
def hexDigit (n : Nat) : Char :=
  if n < 10 then Char.ofNat (48 + n) else Char.ofNat (87 + n)

/-- One character inside a quoted text. Only quotes, backslashes and controls are escaped. -/
def escapeChar (c : Char) : List Char :=
  if c = '"' then ['\\', '"']
  else if c = '\\' then ['\\', '\\']
  else if c = '\n' then ['\\', 'n']
  else if c = '\r' then ['\\', 'r']
  else if c = '\t' then ['\\', 't']
  else if c.toNat = 8 then ['\\', 'b']
  else if c.toNat = 12 then ['\\', 'f']
  else if c.toNat < 32 then
    ['\\', 'u', '0', '0', hexDigit (c.toNat / 16), hexDigit (c.toNat % 16)]
  else [c]

/-- A text in quotes. -/
def quote (s : String) : String :=
  String.ofList ('"' :: (s.toList.flatMap escapeChar ++ ['"']))

end Json

namespace Data

open Json

mutual

/-- The tree on one line. -/
def toJson : Data → String
  | .null => "null"
  | .bool true => "true"
  | .bool false => "false"
  | .number n => numberText n
  | .text s => quote s
  | .list items => "[" ++ String.intercalate "," (itemsToJson items) ++ "]"
  | .record members => "\x7b" ++ String.intercalate "," (membersToJson members) ++ "\x7d"

/-- Each item on one line. -/
def itemsToJson : List Data → List String
  | [] => []
  | d :: ds => d.toJson :: itemsToJson ds

/-- Each member on one line. -/
def membersToJson : List (String × Data) → List String
  | [] => []
  | (n, d) :: ds => (quote n ++ ":" ++ d.toJson) :: membersToJson ds

end

/-- Several parts on lines of their own between two brackets. -/
def bracketed (depth : Nat) (left right : String) (parts : List String) : String :=
  if parts.isEmpty then left ++ right
  else
    let inner := "\n" ++ Text.repeated (depth + 1) "  "
    left ++ inner ++ String.intercalate ("," ++ inner) parts ++ "\n" ++ Text.repeated depth "  " ++
      right

mutual

/-- The tree over several lines, below `depth` levels. -/
def prettyJson (depth : Nat) : Data → String
  | .list items => bracketed depth "[" "]" (prettyItems (depth + 1) items)
  | .record members => bracketed depth "\x7b" "\x7d" (prettyMembers (depth + 1) members)
  | .null => "null"
  | .bool true => "true"
  | .bool false => "false"
  | .number n => numberText n
  | .text s => quote s

/-- Each item over several lines. -/
def prettyItems (depth : Nat) : List Data → List String
  | [] => []
  | d :: ds => prettyJson depth d :: prettyItems depth ds

/-- Each member over several lines. -/
def prettyMembers (depth : Nat) : List (String × Data) → List String
  | [] => []
  | (n, d) :: ds => (quote n ++ ": " ++ prettyJson depth d) :: prettyMembers depth ds

end

/-- The tree over several lines. -/
def toPrettyJson (d : Data) : String := prettyJson 0 d

end Data

end Atlas
