import Atlas.Chars.Blank
import Atlas.Chars.Casing

/-!
# Sets of characters

The sets that a pattern names: ranges, the classes of words, digits and blanks, categories, and
what is built of them. `CharSet.has` decides membership. A set that ignores case holds a character
if it holds one that differs from it in case only.
-/

namespace Atlas

/-- A set of characters. -/
inductive CharSet where
  | nothing
  /-- The code points from the first to the last. -/
  | range (first last : Nat)
  /-- Characters of words. -/
  | word
  /-- Decimal digits of any script. -/
  | digit
  /-- Blanks. -/
  | space
  /-- Alphabetic characters. -/
  | alphabetic
  /-- A category. -/
  | spans (s : Chars.Spans)
  | compl (a : CharSet)
  | union (a b : CharSet)
  | inter (a b : CharSet)
  /-- The set with every character that differs from one of its own in case only. -/
  | ignoringCase (a : CharSet)

namespace CharSet

/-- One character. -/
def char (c : Char) : CharSet := range c.toNat c.toNat

/-- Every character. -/
def any : CharSet := range 0 0x10FFFF

/-- The first set without the second. -/
def diff (a b : CharSet) : CharSet := inter a (compl b)

/-- The characters of just one of two sets. -/
def symmDiff (a b : CharSet) : CharSet := union (diff a b) (diff b a)

/-- The characters of any of the sets. -/
def unions : List CharSet → CharSet
  | [] => nothing
  | [a] => a
  | a :: as => union a (unions as)

/-- The characters that differ from this one in case only, itself included. -/
def caseVariants (c : Char) : List Char :=
  let f := Chars.fold c
  let others := Chars.Casing.foldShifts.filterMap fun s =>
    let n := (f.toNat : Int) - s.offset
    if (s.first : Int) ≤ n ∧ n ≤ s.last ∧ (n.toNat - s.first) % s.step = 0 then
      some (Char.ofNat n.toNat)
    else none
  c :: f :: others

/-- Whether the set holds the character. -/
def has : CharSet → Char → Bool
  | nothing, _ => false
  | range lo hi, c => lo ≤ c.toNat && c.toNat ≤ hi
  | word, c => Chars.isWordChar c
  | digit, c => Chars.isDecimal c
  | space, c => Chars.isBlank c
  | alphabetic, c => Chars.isAlphabetic c
  | spans s, c => s.has c
  | compl a, c => !a.has c
  | union a b, c => a.has c || b.has c
  | inter a b, c => a.has c && b.has c
  | ignoringCase a, c => a.has c || (caseVariants c).any a.has

/-- How many ranges the set is written with; what a compiled set takes grows with it. -/
def weight : CharSet → Nat
  | nothing | range _ _ => 1
  | word | alphabetic => 1500
  | digit => 70
  | space => 10
  | spans s => s.dense.length + s.alternating.length
  | compl a | ignoringCase a => a.weight
  | union a b | inter a b => a.weight + b.weight

end CharSet

end Atlas
