import Atlas.Json.Reader

/-!
# What a plain text stands for

A plain text may stand for nothing, a truth value or a number. `Plain.read?` decides which. Integers
are written in base ten, or with a prefix in base sixteen, eight or two; digits after a leading zero
are no number.
-/

namespace Atlas.Yaml.Plain

attribute [local instance (high)] instPowNat

/-- A word for nothing. -/
def isNull (s : String) : Bool := s == "null" || s == "Null" || s == "NULL" || s == "~"

/-- A word for a truth value. -/
def bool? (s : String) : Option Bool :=
  if s == "true" || s == "True" || s == "TRUE" then some true
  else if s == "false" || s == "False" || s == "FALSE" then some false
  else none

/-! ## Integers -/

/-- The value of a digit in a base of at most sixteen. -/
def digit? (base : Nat) (c : Char) : Option Nat := (Json.hexValue? c).filter (· < base)

/-- The number that digits write. -/
def digits? (base : Nat) (s : List Char) : Option Nat :=
  if s.isEmpty then none else s.foldlM (fun n c => do return n * base + (← digit? base c)) 0

/-- Digits with a leading zero, which are a text. -/
def isPadded (s : List Char) : Bool :=
  let s := match s with
    | '-' :: r => r
    | '+' :: r => r
    | r => r
  match s with
  | '0' :: c :: r => (c :: r).all Json.isDigit
  | _ => false

/-- The number after a prefix for a base. -/
def prefixed? : List Char → Option Nat
  | '0' :: 'x' :: r => digits? 16 r
  | '0' :: 'o' :: r => digits? 8 r
  | '0' :: 'b' :: r => digits? 2 r
  | _ => none

/-- A number without a sign, in any base. -/
def magnitude? (s : List Char) : Option Nat := prefixed? s <|> digits? 10 s

/-- A natural number, which may have a plus sign. -/
def natural? (s : List Char) : Option Nat :=
  if isPadded s then none
  else match s with
    | '+' :: r => magnitude? r
    | r => magnitude? r

/-- An integer. -/
def int? (s : List Char) : Option Int :=
  if isPadded s then none
  else match s with
    | '-' :: r => (magnitude? r).map fun n => -(n : Int)
    | r => (natural? r).map fun n => (n : Int)

/-! ## Numbers with a point -/

/-- The digits of a number with a point, and how many stand after the point. -/
def decimal? (s : List Char) : Option (List Char × Nat × List Char) :=
  let whole := s.takeWhile Json.isDigit
  match s.drop whole.length with
  | '.' :: r =>
    let fraction := r.takeWhile Json.isDigit
    if whole.isEmpty && fraction.isEmpty then none
    else some (whole ++ fraction, fraction.length, r.drop fraction.length)
  | r => if whole.isEmpty then none else some (whole, 0, r)

/-- A decimal number with an optional exponent, rounded. -/
def finite? (negative : Bool) (s : List Char) : Option Binary64 := do
  let (ds, places, r) ← decimal? s
  let exponent ← match r with
    | [] => some 0
    | r => match Json.exponent? r with
      | some (some e, []) => some e
      | _ => none
  let x := Binary64.ofDecimal negative ((digits? 10 ds).getD 0) (exponent - places)
  if x.isFinite then some x else none

/-- A number with a point or an exponent, or a word for a value that is no finite number. -/
def float? (s : String) : Option Binary64 :=
  if [".inf", ".Inf", ".INF", "+.inf", "+.Inf", "+.INF"].contains s then
    some (Binary64.infinity false)
  else if ["-.inf", "-.Inf", "-.INF"].contains s then some (Binary64.infinity true)
  else if [".nan", ".NaN", ".NAN"].contains s then some Binary64.nan
  else match s.toList with
    | '-' :: r => finite? true r
    | '+' :: r => finite? false r
    | r => finite? false r

/-! ## Plain texts -/

/-- What a plain text stands for. -/
inductive Meaning where
  | null
  | bool (value : Bool)
  | number (value : Number)
  /-- An integer that is too large to be held. -/
  | tooLarge
  | text
  deriving DecidableEq, Repr

/-- An integer as what it stands for; none where it is so large that it is read as a float. -/
def ofInt? (n : Int) : Option Meaning :=
  if -(2 ^ (63 : Nat)) ≤ n ∧ n < 2 ^ (64 : Nat) then some (.number (.int n))
  else if -(2 ^ (127 : Nat)) ≤ n ∧ n < 2 ^ (128 : Nat) then some .tooLarge
  else none

/-- What a plain text stands for. -/
def meaning (s : String) : Meaning :=
  if s.isEmpty || isNull s then .null
  else match bool? s with
    | some b => .bool b
    | none =>
      match (int? s.toList).bind ofInt? with
      | some m => m
      | none =>
        if isPadded s.toList then .text
        else match float? s with
          | some x => .number (.float x)
          | none => .text

end Atlas.Yaml.Plain
