/-!
# Cutting and replacing

Plain cuts of a text: at a character (`splitOn`), at the first or last place where a piece stands
(`cut?`, `cutLast?`), into lines (`lines`), and the replacement of one piece by another
(`replace`). The pieces of `splitOn` put back with the separator give the text
(`join_splitOn`).
-/

namespace Atlas.Chars

/-- The pieces between the characters that satisfy `p`; always one more than those. -/
def splitBy (p : Char → Bool) : List Char → List (List Char)
  | [] => [[]]
  | c :: r =>
    if p c then [] :: splitBy p r
    else
      match splitBy p r with
      | [] => [[c]]
      | w :: ws => (c :: w) :: ws

/-- The pieces between the occurrences of `sep`. -/
def splitOn (sep : Char) (s : List Char) : List (List Char) := splitBy (· == sep) s

/-- The pieces with `sep` between them. -/
def join (sep : List Char) : List (List Char) → List Char
  | [] => []
  | [w] => w
  | w :: ws => w ++ sep ++ join sep ws

theorem splitBy_ne_nil (p : Char → Bool) (s : List Char) : splitBy p s ≠ [] := by
  fun_induction splitBy p s <;> simp_all

theorem join_splitOn (sep : Char) (s : List Char) : join [sep] (splitOn sep s) = s := by
  unfold splitOn
  induction s with
  | nil => rfl
  | cons c r ih =>
    rw [splitBy]
    cases h : splitBy (· == sep) r with
    | nil => exact absurd h (splitBy_ne_nil _ _)
    | cons w ws =>
      rw [h] at ih
      by_cases hc : c = sep
      · simp only [hc, BEq.rfl, if_true, join]
        simp [ih]
      · have : (c == sep) = false := by simpa using hc
        cases ws <;> simp_all [join]

/-- Whether `p` stands at the start of the text. -/
def startsWith (p s : List Char) : Bool := p.isPrefixOf s

/-- Whether `p` stands at the end of the text. -/
def endsWith (p s : List Char) : Bool := p.isSuffixOf s

/-- What follows `p`, where the text starts with it. -/
def dropPrefix? (p s : List Char) : Option (List Char) :=
  if startsWith p s then some (s.drop p.length) else none

/-- What stands before `p`, where the text ends with it. -/
def dropSuffix? (p s : List Char) : Option (List Char) :=
  if endsWith p s then some (s.take (s.length - p.length)) else none

/-- What stands before and after the first occurrence of `sep`. -/
def cut? (sep : List Char) : List Char → Option (List Char × List Char)
  | [] => if sep = [] then some ([], []) else none
  | c :: r =>
    match dropPrefix? sep (c :: r) with
    | some rest => some ([], rest)
    | none => (cut? sep r).map fun (a, b) => (c :: a, b)

/-- Whether `p` occurs in the text. -/
def contains (p s : List Char) : Bool := (cut? p s).isSome

/-- What stands before and after the last occurrence of the character `sep`. -/
def cutLast? (sep : Char) : List Char → Option (List Char × List Char)
  | [] => none
  | c :: r =>
    match cutLast? sep r with
    | some (a, b) => some (c :: a, b)
    | none => if c = sep then some ([], r) else none

/-- The text with every occurrence of `old` (read from the left, without overlap) replaced by
`new`; `skip` characters of an occurrence already replaced are still to be passed over. -/
def replaceFrom (old new : List Char) : Nat → List Char → List Char
  | _, [] => []
  | skip + 1, _ :: r => replaceFrom old new skip r
  | 0, c :: r =>
    if old.isPrefixOf (c :: r) then new ++ replaceFrom old new (old.length - 1) r
    else c :: replaceFrom old new 0 r

/-- The text with every occurrence of `old`, which is not empty, replaced by `new`. -/
def replace (old new s : List Char) : List Char := replaceFrom old new 0 s

/-! ## Lines -/

/-- The lines of a text, without their ends: a line ends with a line feed, before which one
carriage return may stand, or with the text. -/
def lines : List Char → List (List Char)
  | [] => []
  | '\n' :: r => [] :: lines r
  | '\r' :: '\n' :: r => [] :: lines r
  | c :: r =>
    match lines r with
    | [] => [[c]]
    | l :: ls => (c :: l) :: ls

end Atlas.Chars
