import Atlas.Text

/-!
# Unique identifiers

Identifiers for the nodes of one document, no two of them alike. `fresh` makes one from a name and
appends `_2`, `_3` and so on where that is taken; `idFor` gives each key one identifier for good,
which `lookup?` finds again.
-/

namespace Atlas

/-- The identifiers allocated so far. -/
structure Identifiers where
  /-- How often each candidate was asked for. -/
  seen : List (String × Nat)
  /-- The identifier of each key. -/
  byKey : List (String × String)
  deriving DecidableEq, Repr

namespace Identifiers

/-- No identifier is allocated. -/
def empty : Identifiers := ⟨[], []⟩

/-- How often a candidate was asked for. -/
def count (seen : List (String × Nat)) (candidate : String) : Nat :=
  (seen.lookup candidate).getD 0

/-- Counts one more request for a candidate. -/
def countOnce (candidate : String) : List (String × Nat) → List (String × Nat)
  | [] => [(candidate, 1)]
  | (c, n) :: r => if c = candidate then (c, n + 1) :: r else (c, n) :: countOnce candidate r

theorem count_cons (c d : String) (n : Nat) (r : List (String × Nat)) :
    count ((c, n) :: r) d = if d = c then n else count r d := by
  by_cases h : d = c
  · simp [count, h]
  · have hb : (d == c) = false := by simpa using h
    simp [count, List.lookup_cons, hb, h]

theorem count_countOnce (seen : List (String × Nat)) (c d : String) :
    count (countOnce c seen) d = if d = c then count seen c + 1 else count seen d := by
  induction seen with
  | nil => simp only [countOnce, count_cons]; rfl
  | cons e r ih =>
    obtain ⟨c', n⟩ := e
    simp only [countOnce]
    split <;> simp only [count_cons, ih] <;> grind

/-- The name with a number. -/
def numbered (base : String) (n : Nat) : String := base ++ "_" ++ toString n

/-- Asks for candidates until one is new. One taken for the `n`-th time is followed by the base
with `n` appended. -/
def search (base : String) :
    Nat → String → List (String × Nat) → String × List (String × Nat)
  | 0, candidate, seen => (candidate, seen)
  | fuel + 1, candidate, seen =>
    let n := count seen candidate + 1
    let seen := countOnce candidate seen
    if n = 1 then (candidate, seen) else search base fuel (numbered base n) seen

/-- A new identifier made from a name. The search looks at each candidate seen before at most as
often as there are such candidates, since each look appends another number. -/
def fresh (ids : Identifiers) (name : String) : String × Identifiers :=
  let base := Text.identifier name
  let (id, seen) := search base (ids.seen.length * ids.seen.length + 2) base ids.seen
  (id, { ids with seen })

/-- The identifier allocated for a key. -/
def lookup? (ids : Identifiers) (key : String) : Option String := ids.byKey.lookup key

/-- The identifier of a key: the one it has, or a new one made from the name. -/
def idFor (ids : Identifiers) (key name : String) : String × Identifiers :=
  match ids.lookup? key with
  | some id => (id, ids)
  | none =>
    let (id, ids) := ids.fresh name
    (id, { ids with byKey := ids.byKey ++ [(key, id)] })

theorem lookup?_idFor (ids : Identifiers) (key name : String) :
    (ids.idFor key name).2.lookup? key = some (ids.idFor key name).1 := by
  unfold idFor
  split
  · assumption
  · rename_i h
    have h' : ids.byKey.lookup key = none := h
    simp [lookup?, fresh, List.lookup_append, h']

end Identifiers

end Atlas
