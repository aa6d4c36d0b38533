/-!
# Blanks and words

The White_Space property of Unicode, and what is cut along it: `trimStart`, `trimEnd`, `trim` and
`words`. No word is empty and no word holds a blank (`ne_nil_of_mem_words`,
`isBlank_of_mem_words`), and a trimmed text starts with no blank (`isBlank_head_trimStart`).
-/

namespace Atlas.Chars

/-- The White_Space property of Unicode. -/
def isBlank (c : Char) : Bool :=
  let n := c.toNat
  (9 ≤ n && n ≤ 13) || n == 0x20 || n == 0x85 || n == 0xA0 || n == 0x1680 ||
    (0x2000 ≤ n && n ≤ 0x200A) || n == 0x2028 || n == 0x2029 || n == 0x202F || n == 0x205F ||
    n == 0x3000

/-- Core's white space is blank. -/
theorem isBlank_of_isWhitespace {c : Char} (h : c.isWhitespace = true) : isBlank c = true := by
  simp only [Char.isWhitespace, Bool.or_eq_true, decide_eq_true_eq] at h
  rcases h with ((h | h) | h) | h <;> subst h <;> rfl

/-! ## Trimming -/

/-- The text without its leading blanks. -/
def trimStart (s : List Char) : List Char := s.dropWhile isBlank

/-- The text without the characters at its end that satisfy `p`. -/
def trimEndWhile (p : Char → Bool) : List Char → List Char
  | [] => []
  | c :: r =>
    match trimEndWhile p r with
    | [] => if p c then [] else [c]
    | t => c :: t

/-- The text without its trailing blanks. -/
def trimEnd (s : List Char) : List Char := trimEndWhile isBlank s

/-- The text without the characters at either end that satisfy `p`. -/
def trimWhile (p : Char → Bool) (s : List Char) : List Char := trimEndWhile p (s.dropWhile p)

/-- The text without blanks at either end. -/
def trim (s : List Char) : List Char := trimWhile isBlank s

theorem isBlank_head_trimStart {c : Char} {r s : List Char} (h : trimStart s = c :: r) :
    isBlank c = false := by
  induction s with
  | nil => simp [trimStart] at h
  | cons d t ih =>
    by_cases hd : isBlank d = true
    · exact ih (by simpa [trimStart, hd] using h)
    · have : d = c := by simpa [trimStart, hd] using congrArg List.head? h
      subst this
      simpa using hd

/-! ## Words -/

/-- The maximal runs of characters that are not blank. -/
def words : List Char → List (List Char)
  | [] => []
  | c :: r =>
    if isBlank c then words r
    else
      match r with
      | [] => [[c]]
      | d :: _ =>
        if isBlank d then [c] :: words r
        else
          match words r with
          | [] => [[c]]
          | w :: ws => (c :: w) :: ws

theorem ne_nil_of_mem_words {w s : List Char} (h : w ∈ words s) : w ≠ [] := by
  fun_induction words s generalizing w <;> simp_all
  · rcases h with rfl | h <;> simp_all
  · rcases h with rfl | h <;> simp_all

theorem isBlank_of_mem_words {w s : List Char} {c : Char} (h : w ∈ words s) (hc : c ∈ w) :
    isBlank c = false := by
  fun_induction words s generalizing w with
  | case1 => simp at h
  | case2 d r hd ih => exact ih h hc
  | case3 d hd => simp_all
  | case4 d hd e r he ih =>
    rcases List.mem_cons.1 h with rfl | h
    · rw [List.mem_singleton.1 hc]
      simpa using hd
    · exact ih h hc
  | case5 d hd e r he hw ih => simp_all
  | case6 d hd e r he v vs hw ih =>
    rw [hw] at h ih
    rcases List.mem_cons.1 h with rfl | h
    · rcases List.mem_cons.1 hc with rfl | hc
      · simpa using hd
      · exact ih (List.mem_cons_self ..) hc
    · exact ih (List.mem_cons_of_mem _ h) hc

end Atlas.Chars
