import Atlas.Chars.Split

/-!
# Nested lists

Cuts at commas that stand outside brackets and quotes (`splitTopLevel`). A closing bracket without
an opening one changes nothing. The pieces put back with commas give the text
(`join_splitTopLevel`).
-/

namespace Atlas.Chars

/-- Puts a character before the first piece. -/
def consFirst (c : Char) : List (List Char) → List (List Char)
  | [] => [[c]]
  | w :: ws => (c :: w) :: ws

/-- The pieces of the rest of a text, inside a quote that `quote` closes or inside `depth`
brackets. -/
def splitTopLevelFrom (quotes : List Char) : Option Char → Nat → List Char → List (List Char)
  | _, _, [] => [[]]
  | some q, depth, c :: r =>
    consFirst c (splitTopLevelFrom quotes (if c = q then none else some q) depth r)
  | none, depth, c :: r =>
    if c ∈ quotes then consFirst c (splitTopLevelFrom quotes (some c) depth r)
    else if c = '(' ∨ c = '[' then consFirst c (splitTopLevelFrom quotes none (depth + 1) r)
    else if c = ')' ∨ c = ']' then consFirst c (splitTopLevelFrom quotes none (depth - 1) r)
    else if c = ',' ∧ depth = 0 then [] :: splitTopLevelFrom quotes none depth r
    else consFirst c (splitTopLevelFrom quotes none depth r)

/-- The pieces of a text between its top-level commas, where `quotes` are the characters that open
and close a quote. -/
def splitTopLevel (quotes : List Char) (s : List Char) : List (List Char) :=
  splitTopLevelFrom quotes none 0 s

theorem splitTopLevelFrom_ne_nil {quotes : List Char} {quote : Option Char} {depth : Nat}
    {s : List Char} : splitTopLevelFrom quotes quote depth s ≠ [] := by
  have hc (c : Char) (l : List (List Char)) : consFirst c l ≠ [] := by
    cases l <;> simp [consFirst]
  fun_cases splitTopLevelFrom quotes quote depth s <;> simp_all

theorem join_consFirst (c : Char) {l : List (List Char)} (h : l ≠ []) :
    join [','] (consFirst c l) = c :: join [','] l := by
  match l with
  | [] => exact absurd rfl h
  | [w] => rfl
  | w :: v :: ws => rfl

theorem join_splitTopLevelFrom (quotes : List Char) (quote : Option Char) (depth : Nat)
    (s : List Char) : join [','] (splitTopLevelFrom quotes quote depth s) = s := by
  fun_induction splitTopLevelFrom quotes quote depth s with
  | case1 => rfl
  | case2 d q c r ih => rw [join_consFirst _ splitTopLevelFrom_ne_nil, ih]
  | case3 d c r _ ih => rw [join_consFirst _ splitTopLevelFrom_ne_nil, ih]
  | case4 d c r _ _ ih => rw [join_consFirst _ splitTopLevelFrom_ne_nil, ih]
  | case5 d c r _ _ _ ih => rw [join_consFirst _ splitTopLevelFrom_ne_nil, ih]
  | case6 d c r _ _ _ h ih =>
    obtain ⟨rfl, rfl⟩ := h
    cases hs : splitTopLevelFrom quotes none 0 r with
    | nil => exact absurd hs splitTopLevelFrom_ne_nil
    | cons w ws => simpa [join, hs] using ih
  | case7 d c r _ _ _ _ ih => rw [join_consFirst _ splitTopLevelFrom_ne_nil, ih]

theorem join_splitTopLevel (quotes s : List Char) : join [','] (splitTopLevel quotes s) = s :=
  join_splitTopLevelFrom ..

end Atlas.Chars
