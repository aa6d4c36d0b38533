import Atlas.Number.Binary64

/-!
# Decimals

The decimal with the fewest digits that is nearer to a floating-point number than to any other
(`shortest`). Of several it is the one nearest to the number, and of two equally near ones the even
one.

It is written positionally from `10^-5` up to below `10^16`, always with a digit after the point,
and with an exponent otherwise (`text`). `Layout` holds what differs between the formats that write
numbers.
-/

namespace Atlas.Binary64

/-! ## Shortest decimals -/

section Shortest

attribute [local instance (high)] instPowNat

/-- A magnitude `m · 2^q` as a quotient of integers. -/
def ratio (m : Nat) (q : Int) : Nat × Nat := (m * 2 ^ q.toNat, 2 ^ (-q).toNat)

/-- The greatest `e` with `10^e ≤ num / den`, searched downwards from the start value. -/
def decimalExponent (num den : Nat) : Nat → Int → Int
  | 0, e => e
  | fuel + 1, e =>
    if den * 10 ^ e.toNat ≤ num * 10 ^ (-e).toNat then e else decimalExponent num den fuel (e - 1)

/-- The integer `d` with `d · 10^k` inside the rounding interval of `m · 2^q` and nearest to it, if
there is one. The interval is given in quarters of `2^q`. -/
def gridPoint? (m : Nat) (q : Int) (k : Int) : Option Nat :=
  let low := if m = 2 ^ (52 : Nat) ∧ q > -1074 then 4 * m - 1 else 4 * m - 2
  let high := 4 * m + 2
  -- everything is compared after multiplication by `4 · 2^(-q) · 10^(-k)` or its inverse
  let unit := 2 ^ q.toNat * 10 ^ (-k).toNat
  let step := 4 * 2 ^ (-q).toNat * 10 ^ k.toNat
  let d := 4 * m * unit / step
  let inside (n : Nat) : Bool :=
    let x := n * step
    if m % 2 = 0 then low * unit ≤ x && x ≤ high * unit
    else low * unit < x && x < high * unit
  let below := 4 * m * unit - d * step
  let above := (d + 1) * step - 4 * m * unit
  match inside d, inside (d + 1) with
  | true, true =>
    some (if below < above then d else if above < below then d + 1 else d + d % 2)
  | true, false => some d
  | false, true => some (d + 1)
  | false, false => none

/-- The first grid, from coarse to fine, on which a point lies in the rounding interval. -/
def shortestFrom (m : Nat) (q : Int) : Nat → Int → Nat × Int
  | 0, k => (0, k)
  | fuel + 1, k =>
    match gridPoint? m q k with
    | some d => (d, k)
    | none => shortestFrom m q fuel (k - 1)

/-- Takes the zeros off the end of the digits. -/
def dropZeros : Nat → Nat → Int → Nat × Int
  | 0, d, k => (d, k)
  | fuel + 1, d, k => if d ≠ 0 ∧ d % 10 = 0 then dropZeros fuel (d / 10) (k + 1) else (d, k)

/-- The digits and the exponent of the shortest decimal for the magnitude of a finite number. -/
def shortest (x : Binary64) : Nat × Int :=
  if x.significand = 0 then (0, 0)
  else
    let m := x.significand
    let q := x.exponent
    let (num, den) := ratio m q
    let e := decimalExponent num den 700 310
    let (d, k) := shortestFrom m q 18 e
    dropZeros 18 d k

end Shortest

/-! ## Layout -/

/-- The choices of a format. -/
structure Layout where
  /-- What stands between the digits and a positive exponent. -/
  positiveMark : String
  nanText : String
  infinityText : String
  negativeInfinityText : String

/-- Decimal digits of a number. -/
def digitsText (n : Nat) : List Char := Nat.toDigits 10 n

/-- The text of the magnitude `digits · 10^exponent`. -/
def magnitudeText (layout : Layout) (digits : Nat) (exponent : Int) : List Char :=
  let ds := digitsText digits
  -- the place of the point, counted from the first digit
  let point := exponent + ds.length
  if digits = 0 then ['0', '.', '0']
  else if 0 ≤ exponent ∧ point ≤ 16 then
    ds ++ List.replicate exponent.toNat '0' ++ ['.', '0']
  else if 0 < point ∧ point ≤ 16 then
    ds.take point.toNat ++ ['.'] ++ ds.drop point.toNat
  else if -5 < point ∧ point ≤ 0 then
    ['0', '.'] ++ List.replicate (-point).toNat '0' ++ ds
  else
    let e := point - 1
    let mantissa := match ds with
      | d :: c :: r => d :: '.' :: c :: r
      | _ => ds
    mantissa ++ (if e < 0 then "e-".toList else layout.positiveMark.toList) ++ digitsText e.natAbs

/-- The text of a number. -/
def text (layout : Layout) (x : Binary64) : String :=
  if x.isNan then layout.nanText
  else if !x.isFinite then
    if x.negative then layout.negativeInfinityText else layout.infinityText
  else
    let (d, k) := x.shortest
    String.ofList ((if x.negative then ['-'] else []) ++ magnitudeText layout d k)

end Atlas.Binary64
