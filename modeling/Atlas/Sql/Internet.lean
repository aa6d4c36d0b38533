import Atlas.Chars.Class
import Atlas.Chars.Split
import Atlas.Json.Reader

/-!
# Numbers and hosts in addresses

Whether a text is a number of some range or a numeric internet address, as the addresses of servers
hold them.
-/

namespace Atlas.Sql

attribute [local instance (high)] instPowNat

/-- The value of a text of digits, which is not empty. -/
def digits? (s : List Char) : Option Nat :=
  if s = [] ∨ s.any (!Chars.isAsciiDigit ·) then none
  else some (s.foldl (fun n c => n * 10 + (c.toNat - '0'.toNat)) 0)

/-- Whether the text is a natural number below `bound`; a plus sign may stand before it. -/
def isNatural (bound : Nat) : List Char → Bool
  | '+' :: s => (digits? s).any (· < bound)
  | s => (digits? s).any (· < bound)

/-- Whether the text is an integer of `n + 1` bits. -/
def isInteger (n : Nat) : List Char → Bool
  | '-' :: s => (digits? s).any (· ≤ 2 ^ n)
  | s => isNatural (2 ^ n) s

/-- Whether the text is a part of an address of four numbers. -/
def isOctet (s : List Char) : Bool :=
  s.length ≤ 3 && (digits? s).any (· < 256) && (s.length == 1 || s.head? != some '0')

/-- Whether the text is an internet address of four numbers. -/
def isIpv4 (s : List Char) : Bool :=
  let parts := Chars.splitOn '.' s
  parts.length == 4 && parts.all isOctet

/-- Whether the text is a group of up to four hexadecimal digits. -/
def isGroup (s : List Char) : Bool :=
  s ≠ [] && s.length ≤ 4 && s.all fun c => (Json.hexValue? c).isSome

/-- How many groups a list of them counts for. Where `tail` is set, four numbers may stand in place of
the last two. -/
def groupCount? (tail : Bool) : List (List Char) → Option Nat
  | [] => some 0
  | [s] => if isGroup s then some 1 else if tail && isIpv4 s then some 2 else none
  | s :: r => if isGroup s then (groupCount? tail r).map (· + 1) else none

/-- The groups of a part of an address; an empty part has none. -/
def groupsOf (s : List Char) : List (List Char) := if s = [] then [] else Chars.splitOn ':' s

/-- Whether the text is an internet address of eight groups, some of which two colons may stand
for. -/
def isIpv6 (s : List Char) : Bool :=
  match Chars.cut? "::".toList s with
  | some (a, b) =>
    match groupCount? false (groupsOf a), groupCount? true (groupsOf b) with
    | some m, some n => m + n ≤ 7
    | _, _ => false
  | none => groupCount? true (groupsOf s) == some 8

end Atlas.Sql
