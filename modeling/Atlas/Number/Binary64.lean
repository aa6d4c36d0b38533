/-!
# Binary floating point

The 64-bit floating-point numbers as bits, in exact arithmetic: the value `m · 2^q` of a finite
number (`significand`, `exponent`), and `ofRatio`, the number nearest to a quotient, ties to the
even significand.
-/

namespace Atlas

/-- A floating-point number: a sign bit, eleven exponent bits and fifty-two fraction bits. -/
structure Binary64 where
  bits : UInt64
  deriving DecidableEq, Repr

namespace Binary64

-- powers mean those of natural numbers, whatever algebra is imported beside this
attribute [local instance (high)] instPowNat

/-- Whether the sign bit is set. -/
def negative (x : Binary64) : Bool := x.bits.toNat / 2 ^ (63 : Nat) == 1

/-- The exponent bits. -/
def biased (x : Binary64) : Nat := x.bits.toNat / 2 ^ (52 : Nat) % 2 ^ (11 : Nat)

/-- The fraction bits. -/
def fraction (x : Binary64) : Nat := x.bits.toNat % 2 ^ (52 : Nat)

/-- Neither infinite nor not a number. -/
def isFinite (x : Binary64) : Bool := x.biased != 2047

/-- Not a number. -/
def isNan (x : Binary64) : Bool := x.biased == 2047 && x.fraction != 0

/-- The integer `m` of the magnitude `m · 2^q` of a finite number. -/
def significand (x : Binary64) : Nat :=
  if x.biased = 0 then x.fraction else x.fraction + 2 ^ (52 : Nat)

/-- The exponent `q` of the magnitude `m · 2^q` of a finite number. -/
def exponent (x : Binary64) : Int := (max x.biased 1 : Nat) - 1075

/-- The number of the given sign, exponent bits and fraction bits. -/
def ofParts (negative : Bool) (biased fraction : Nat) : Binary64 :=
  ⟨UInt64.ofNat ((if negative then 2 ^ (63 : Nat) else 0) + biased * 2 ^ (52 : Nat) + fraction)⟩

/-- An infinite number. -/
def infinity (negative : Bool) : Binary64 := ofParts negative 2047 0

/-- The value that stands for no number. -/
def nan : Binary64 := ofParts false 2047 (2 ^ (51 : Nat))

/-- The number of magnitude `m · 2^q`, where `m < 2^53` and `-1074 ≤ q`, and `q` is `-1074` where
`m < 2^52`. -/
def ofScaled (negative : Bool) (m : Nat) (q : Int) : Binary64 :=
  if m < 2 ^ (52 : Nat) then ofParts negative 0 m
  else if q > 971 then infinity negative
  else ofParts negative (q + 1075).toNat (m - 2 ^ (52 : Nat))

/-- `num / den · 2^(-q)` to the nearest integer, a tie to the even one. -/
def divideRounded (num den : Nat) (q : Int) : Nat :=
  let n := num * 2 ^ (-q).toNat
  let d := den * 2 ^ q.toNat
  let m := n / d
  let r := n % d
  if 2 * r < d then m else if d < 2 * r then m + 1 else m + m % 2

/-- The exponent at which a positive quotient has fifty-three bits, but at least `-1074`. -/
def ratioExponent (num den : Nat) : Int :=
  let q : Int := (Nat.log2 num : Int) - Nat.log2 den - 52
  -- the quotient of the logarithms is right or one too large
  let q := if num * 2 ^ (-q).toNat < den * 2 ^ (52 : Nat) * 2 ^ q.toNat then q - 1 else q
  max q (-1074)

/-- The number nearest to `num / den`, with a sign. -/
def ofRatio (negative : Bool) (num den : Nat) : Binary64 :=
  if num = 0 then ofParts negative 0 0
  else
    let q := ratioExponent num den
    let m := divideRounded num den q
    if m = 2 ^ (53 : Nat) then ofScaled negative (2 ^ (52 : Nat)) (q + 1) else ofScaled negative m q

/-- The number nearest to `digits · 10^exponent`, with a sign. -/
def ofDecimal (negative : Bool) (digits : Nat) (exponent : Int) : Binary64 :=
  -- beyond these bounds the number is infinite or zero whatever the digits are
  if digits = 0 then ofParts negative 0 0
  else if exponent > 400 then infinity negative
  else if exponent + (Nat.log2 digits : Int) < -1200 then ofParts negative 0 0
  else ofRatio negative (digits * 10 ^ exponent.toNat) (10 ^ (-exponent).toNat)

/-- The product of two finite numbers, rounded. -/
def mul (x y : Binary64) : Binary64 :=
  let q := x.exponent + y.exponent
  ofRatio (x.negative != y.negative) (x.significand * y.significand * 2 ^ q.toNat)
    (2 ^ (-q).toNat)

/-- The quotient of two finite numbers, the second not zero, rounded. -/
def div (x y : Binary64) : Binary64 :=
  let q := x.exponent - y.exponent
  ofRatio (x.negative != y.negative) (x.significand * 2 ^ q.toNat)
    (y.significand * 2 ^ (-q).toNat)

end Binary64

end Atlas
