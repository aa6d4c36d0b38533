/-!
# UTF-8

The bytes of a text (`encode`) and the text of bytes: strictly (`decode?`), or with each part that
is no UTF-8 replaced by one replacement character (`decodeLossy`). A part is the longest start of a
character that no further byte completes.
-/

namespace Atlas.Utf8

attribute [local instance (high)] instPowNat

/-- The bytes of a character. -/
def encodeChar (c : Char) : List UInt8 :=
  let n := c.toNat
  let tail (shift : Nat) : UInt8 := UInt8.ofNat (0x80 + n / 2 ^ shift % 64)
  if n < 0x80 then [UInt8.ofNat n]
  else if n < 0x800 then [UInt8.ofNat (0xC0 + n / 64), tail 0]
  else if n < 0x10000 then [UInt8.ofNat (0xE0 + n / 4096), tail 6, tail 0]
  else [UInt8.ofNat (0xF0 + n / 262144), tail 12, tail 6, tail 0]

/-- The bytes of a text. -/
def encode (s : List Char) : List UInt8 := s.flatMap encodeChar

/-- How many bytes follow a first byte, and between which bounds the second one lies. -/
def shape? (b : UInt8) : Option (Nat × UInt8 × UInt8) :=
  if b < 0x80 then some (0, 0x80, 0xBF)
  else if 0xC2 ≤ b ∧ b ≤ 0xDF then some (1, 0x80, 0xBF)
  else if b = 0xE0 then some (2, 0xA0, 0xBF)
  else if b = 0xED then some (2, 0x80, 0x9F)
  else if 0xE1 ≤ b ∧ b ≤ 0xEF then some (2, 0x80, 0xBF)
  else if b = 0xF0 then some (3, 0x90, 0xBF)
  else if 0xF1 ≤ b ∧ b ≤ 0xF3 then some (3, 0x80, 0xBF)
  else if b = 0xF4 then some (3, 0x80, 0x8F)
  else none

/-- The value that a first byte contributes, before those that follow. -/
def leadValue (b : UInt8) : Nat :=
  if b < 0x80 then b.toNat
  else if b < 0xE0 then b.toNat - 0xC0
  else if b < 0xF0 then b.toNat - 0xE0
  else b.toNat - 0xF0

/-- What is still owed of a character: how many bytes, the bounds of the next one, and the value of
those read. -/
structure Pending where
  owed : Nat
  low : UInt8
  high : UInt8
  value : Nat

/-- The character of a first byte that stands alone, or what it owes. -/
def first (b : UInt8) : Except Pending (Option Char) :=
  match shape? b with
  | none => .ok none
  | some (0, _, _) => .ok (some (Char.ofNat b.toNat))
  | some (n + 1, low, high) => .error ⟨n + 1, low, high, leadValue b⟩

/-- The characters of the bytes, none for each part that is no UTF-8. -/
def decodeParts : Option Pending → List UInt8 → List (Option Char)
  | none, [] => []
  | some _, [] => [none]
  | none, b :: r =>
    match first b with
    | .ok c => c :: decodeParts none r
    | .error p => decodeParts (some p) r
  | some p, b :: r =>
    if p.low ≤ b ∧ b ≤ p.high then
      let value := p.value * 64 + (b.toNat - 0x80)
      if p.owed ≤ 1 then some (Char.ofNat value) :: decodeParts none r
      else decodeParts (some ⟨p.owed - 1, 0x80, 0xBF, value⟩) r
    else
      match first b with
      | .ok c => none :: c :: decodeParts none r
      | .error p => none :: decodeParts (some p) r

/-- The text of the bytes, with replacement characters. -/
def decodeLossy (bs : List UInt8) : String :=
  String.ofList ((decodeParts none bs).map (·.getD '\uFFFD'))

/-- The text of the bytes, if they are UTF-8. -/
def decode? (bs : List UInt8) : Option String :=
  ((decodeParts none bs).mapM id).map String.ofList

end Atlas.Utf8
