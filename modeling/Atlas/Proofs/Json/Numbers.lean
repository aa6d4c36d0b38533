import Atlas.Json.Printer
import Atlas.Json.Reader
import Atlas.Proofs.Text
import Mathlib.Data.List.TakeWhile

/-!
# Numbers in JSON

A number is read in the same way whatever follows it (`Json.number?_append`). The integers that are
read are those of 64 bits, with a sign or without (`Json.inRange_of_number?`), and these are read
from their digits (`Json.number?_toDigits`, `Json.numberOf_toDigits`).
-/

set_option linter.unusedSectionVars false

namespace Atlas.Json

attribute [local instance (high)] instPowNat

/-! ## What follows a number -/

/-- What does not go on with a number. -/
def EndsNumber (rest : List Char) : Prop :=
  ∀ c ∈ rest.head?, isDigit c = false ∧ c ≠ '.' ∧ c ≠ 'e' ∧ c ≠ 'E'

theorem EndsNumber.nil : EndsNumber [] :=
  nofun

theorem EndsNumber.cons {c : Char} {rest : List Char}
    (h : isDigit c = false ∧ c ≠ '.' ∧ c ≠ 'e' ∧ c ≠ 'E') : EndsNumber (c :: rest) := by
  rintro _ ⟨⟩
  exact h

/-- Whether the digits of an exponent are negated, and what follows the sign. -/
def signed : List Char → Bool × List Char
  | '-' :: r => (true, r)
  | '+' :: r => (false, r)
  | r => (false, r)

theorem exponent?_cons {c : Char} (hc : c = 'e' ∨ c = 'E') (s : List Char) :
    exponent? (c :: s) =
      match digits (signed s).2 with
      | ([], _) => none
      | (ds, r) =>
        let n : Int := (ds.foldl (fun n c => n * 10 + (c.toNat - 48)) 0 : Nat)
        some (some (if (signed s).1 then -n else n), r) :=
  if_pos hc

theorem exponent?_cons_of_not {c : Char} (hc : ¬(c = 'e' ∨ c = 'E')) (s : List Char) :
    exponent? (c :: s) = some (none, c :: s) :=
  if_neg hc

theorem signed_append {s : List Char} (hs : s ≠ []) (rest : List Char) :
    signed (s ++ rest) = ((signed s).1, (signed s).2 ++ rest) := by
  cases s with
  | nil => exact absurd rfl hs
  | cons c s =>
    by_cases hminus : c = '-'
    · rw [hminus]
      rfl
    · by_cases hplus : c = '+'
      · rw [hplus]
        rfl
      · simp [signed, hminus, hplus]

/-- The number of its parts. -/
def numberOf (negative : Bool) (whole : List Char) (fraction : Option (List Char))
    (exponent : Option Int) : Option Number :=
  match fraction, exponent with
  | none, none =>
    let (n, excess) := accumulate 0 whole
    if excess = 0 ∧ ¬negative then some (.int n)
    else if excess = 0 ∧ 0 < n ∧ n ≤ 2 ^ (63 : Nat) then some (.int (-n))
    else float? negative whole [] 0
  | _, _ => float? negative whole (fraction.getD []) (exponent.getD 0)

theorem number?_eq (negative : Bool) (s : List Char) : number? negative s =
    if (digits s).1 = [] ∨ ((digits s).1.head? = some '0' ∧ (digits s).1.length ≠ 1) then none
    else (fraction? (digits s).2).bind fun f =>
      (exponent? f.2).bind fun e => some (numberOf negative (digits s).1 f.1 e.1, e.2) := by
  unfold number?
  dsimp only
  by_cases hwhole :
      (digits s).1 = [] ∨ ((digits s).1.head? = some '0' ∧ (digits s).1.length ≠ 1)
  · rw [if_pos hwhole, if_pos hwhole]
    rfl
  · rw [if_neg hwhole, if_neg hwhole, Option.bind_eq_bind]
    refine Option.bind_congr fun f _ => Option.bind_congr fun e _ => ?_
    unfold numberOf
    cases f.1 <;> cases e.1
    · dsimp only
      split_ifs <;> rfl
    all_goals rfl

section Append

variable {s rest : List Char} (hrest : EndsNumber rest)

include hrest

theorem digits_append : digits (s ++ rest) = ((digits s).1, (digits s).2 ++ rest) := by
  induction s with
  | nil =>
    cases rest with
    | nil => rfl
    | cons c rest =>
      have hc := (hrest c rfl).1
      simp [digits, hc]
  | cons c s ih =>
    simp only [digits, Prod.mk.injEq] at ih ⊢
    rw [List.cons_append, List.takeWhile_cons, List.takeWhile_cons, List.dropWhile_cons,
      List.dropWhile_cons, ih.1, ih.2]
    split_ifs <;> simp

theorem fraction?_append {f : Option (List Char)} {r : List Char}
    (h : fraction? s = some (f, r)) : fraction? (s ++ rest) = some (f, r ++ rest) := by
  unfold fraction? at h
  split at h
  · rename_i s
    rw [List.cons_append, fraction?, digits_append hrest]
    rcases hdigits : digits s with ⟨_ | ⟨d, ds⟩, after⟩ <;> rw [hdigits] at h <;> cases h
    rfl
  · rename_i hpoint
    cases h
    unfold fraction?
    split
    · rename_i r' hs
      cases s with
      | nil => exact absurd rfl ((hrest '.' (by rw [List.nil_append] at hs; rw [hs]; rfl)).2.1)
      | cons c s => exact absurd (congrArg₂ List.cons (List.cons.inj hs).1 rfl) (hpoint s)
    · rfl

theorem exponent?_append {e : Option Int} {r : List Char} (h : exponent? s = some (e, r)) :
    exponent? (s ++ rest) = some (e, r ++ rest) := by
  cases s with
  | nil =>
    cases h
    cases rest with
    | nil => rfl
    | cons c rest =>
      have hc := (hrest c rfl).2.2
      simp [exponent?, hc]
  | cons c s =>
    by_cases hc : c = 'e' ∨ c = 'E'
    · have hs : s ≠ [] := by
        rintro rfl
        rw [exponent?_cons hc] at h
        cases h
      rw [exponent?_cons hc] at h
      rw [List.cons_append, exponent?_cons hc, signed_append hs, digits_append hrest]
      rcases hdigits : digits (signed s).2 with ⟨_ | ⟨d, ds⟩, after⟩ <;> rw [hdigits] at h <;>
        cases h
      rfl
    · rw [exponent?_cons_of_not hc] at h
      rw [List.cons_append, exponent?_cons_of_not hc]
      cases h
      rfl

/-- A number is read in the same way whatever follows it. -/
theorem number?_append {negative : Bool} {v : Option Number} {r : List Char}
    (h : number? negative s = some (v, r)) :
    number? negative (s ++ rest) = some (v, r ++ rest) := by
  rw [number?_eq] at h ⊢
  rw [digits_append hrest]
  split_ifs at h ⊢ with hwhole
  simp only [Option.bind_eq_some_iff] at h ⊢
  obtain ⟨⟨fraction, r₁⟩, hfraction, ⟨exponent, r₂⟩, hexponent, h⟩ := h
  cases h
  exact ⟨_, fraction?_append hrest hfraction, _, exponent?_append hrest hexponent, rfl⟩

end Append

/-! ## Integers -/

/-- An integer with 64 bits, with a sign or without, or a floating-point number. -/
def InRange : Number → Prop
  | .int i => -(2 ^ (63 : Nat) : Nat) ≤ i ∧ i ≤ maxInt
  | .float _ => True

theorem accumulate_le {n : ℕ} (h : n ≤ maxInt) (cs : List Char) :
    (accumulate n cs).1 ≤ maxInt := by
  induction cs generalizing n with
  | nil => exact h
  | cons c cs ih =>
    unfold accumulate
    dsimp only
    split_ifs with hstep
    · exact ih hstep
    · exact h

theorem inRange_of_float? {negative : Bool} {whole fraction : List Char} {e : Int} {n : Number}
    (h : float? negative whole fraction e = some n) : InRange n := by
  obtain ⟨x, -, h⟩ := Option.bind_eq_some_iff.1 h
  cases h
  exact trivial

theorem inRange_numberOf {negative : Bool} {whole : List Char} {fraction : Option (List Char)}
    {exponent : Option Int} {n : Number}
    (h : numberOf negative whole fraction exponent = some n) : InRange n := by
  have hle := accumulate_le (Nat.zero_le maxInt) whole
  unfold numberOf at h
  split at h
  · dsimp only at h
    split_ifs at h with hplain hnegated
    · cases h
      constructor <;> omega
    · cases h
      constructor <;> omega
    · exact inRange_of_float? h
  · exact inRange_of_float? h

theorem inRange_of_number? {negative : Bool} {s r : List Char} {v : Option Number}
    (h : number? negative s = some (v, r)) : ∀ n ∈ v, InRange n := by
  rw [number?_eq] at h
  split_ifs at h
  simp only [Option.bind_eq_some_iff] at h
  obtain ⟨f, -, e, -, h⟩ := h
  cases h
  exact fun n => inRange_numberOf

theorem le_ofDigitChars (cs : List Char) (n : ℕ) : n ≤ Nat.ofDigitChars 10 cs n := by
  induction cs generalizing n with
  | nil => exact Nat.le_refl n
  | cons c cs ih =>
    rw [Nat.ofDigitChars_cons]
    exact Nat.le_trans (by omega) (ih _)

theorem accumulate_eq {cs : List Char} {n : ℕ} (h : Nat.ofDigitChars 10 cs n ≤ maxInt) :
    accumulate n cs = (Nat.ofDigitChars 10 cs n, 0) := by
  induction cs generalizing n with
  | nil => rfl
  | cons c cs ih =>
    rw [Nat.ofDigitChars_cons, Nat.mul_comm] at h ⊢
    have hstep : n * 10 + (c.toNat - 48) ≤ maxInt := Nat.le_trans (le_ofDigitChars cs _) h
    rw [accumulate, if_pos hstep]
    exact ih h

theorem isDigit_of_mem_toDigits {n : ℕ} {c : Char} (h : c ∈ Nat.toDigits 10 n) :
    isDigit c = true :=
  Nat.isDigit_of_mem_toDigits (by omega) (by omega) h

theorem digits_toDigits (n : ℕ) : digits (Nat.toDigits 10 n) = (Nat.toDigits 10 n, []) := by
  have hdigit : ∀ c ∈ Nat.toDigits 10 n, isDigit c = true := fun c => isDigit_of_mem_toDigits
  rw [digits, List.takeWhile_eq_self_iff.2 hdigit, List.dropWhile_eq_nil_iff.2 hdigit]

/-- Only nought starts with a nought. -/
theorem head?_toDigits {n : ℕ} (h : n ≠ 0) : (Nat.toDigits 10 n).head? ≠ some '0' := by
  induction n using Nat.strongRecOn with
  | ind n ih =>
    rw [Nat.toDigits_eq_if (by omega)]
    split_ifs with hn
    · have hdigit : ∀ d < 10, d ≠ 0 → [d.digitChar].head? ≠ some '0' := by decide
      exact hdigit n hn h
    · have hne : (Nat.toDigits 10 (n / 10)).head? ≠ some '0' :=
        ih (n / 10) (by omega) (by omega)
      rwa [List.head?_append_of_ne_nil _ Nat.toDigits_ne_nil]

/-- The digits of an integer are read to their end. -/
theorem number?_toDigits (negative : Bool) (n : ℕ) : number? negative (Nat.toDigits 10 n) =
    some (numberOf negative (Nat.toDigits 10 n) none none, []) := by
  rw [number?_eq, digits_toDigits, if_neg]
  · rfl
  · rintro (hnil | ⟨hzero, hlength⟩)
    · exact Nat.toDigits_ne_nil hnil
    · by_cases hn : n = 0
      · subst hn
        exact hlength rfl
      · exact head?_toDigits hn hzero

theorem numberOf_toDigits {n : ℕ} (h : n ≤ maxInt) :
    numberOf false (Nat.toDigits 10 n) none none = some (.int n) := by
  have hn : Nat.ofDigitChars 10 (Nat.toDigits 10 n) 0 = n := Nat.ofDigitChars_ten_toDigits
  unfold numberOf
  dsimp only
  rw [accumulate_eq (by rwa [hn]), hn]
  rfl

theorem numberOf_toDigits_neg {n : ℕ} (hpos : 0 < n) (h : n ≤ 2 ^ (63 : Nat)) :
    numberOf true (Nat.toDigits 10 n) none none = some (.int (-n)) := by
  have hn : Nat.ofDigitChars 10 (Nat.toDigits 10 n) 0 = n := Nat.ofDigitChars_ten_toDigits
  have hmax : 2 ^ (63 : Nat) ≤ maxInt := by decide
  unfold numberOf
  dsimp only
  rw [accumulate_eq (by rw [hn]; exact Nat.le_trans h hmax), hn, if_neg (by simp),
    if_pos ⟨rfl, hpos, h⟩]

end Atlas.Json
