/-!
# Escaped text

How free text is kept inside a quoted label (`escape`, `unescape`) or on one line (`singleLine`),
and how a name is made an identifier (`identifier`). Unescaping undoes escaping
(`unescape_escape`).
-/

namespace Atlas.Chars

/-- What stands for one character inside a quoted label. -/
def escapeChar : Char → List Char
  | '\\' => ['\\', '\\']
  | '"' => ['\\', '"']
  | '\n' => ['\\', 'n']
  | '\r' => ['\\', 'r']
  | c => [c]

/-- The text as it is written inside a quoted label. -/
def escape (s : List Char) : List Char := s.flatMap escapeChar

/-- The text that a quoted label stands for. A backslash before any other character is itself. -/
def unescape : List Char → List Char
  | '\\' :: 'n' :: r => '\n' :: unescape r
  | '\\' :: 'r' :: r => '\r' :: unescape r
  | '\\' :: '"' :: r => '"' :: unescape r
  | '\\' :: '\\' :: r => '\\' :: unescape r
  | '\\' :: c :: r => '\\' :: c :: unescape r
  | c :: r => c :: unescape r
  | [] => []

theorem unescape_escapeChar_append (c : Char) (s : List Char) :
    unescape (escapeChar c ++ s) = c :: unescape s := by
  fun_cases escapeChar c
  · rfl
  · rfl
  · rfl
  · rfl
  · rename_i h _ _ _
    cases s <;> simp_all [unescape]

theorem unescape_escape (s : List Char) : unescape (escape s) = s := by
  induction s with
  | nil => rfl
  | cons c r ih =>
    rw [escape, List.flatMap_cons, unescape_escapeChar_append]
    exact congrArg _ ih

/-- The text with its line breaks written as two characters each. -/
def singleLine (s : List Char) : List Char :=
  s.flatMap fun c => if c = '\n' then ['\\', 'n'] else if c = '\r' then ['\\', 'r'] else [c]

/-! ## Identifiers -/

/-- An ASCII letter or the underscore. -/
def startsIdentifier (c : Char) : Bool :=
  ('a' ≤ c && c ≤ 'z') || ('A' ≤ c && c ≤ 'Z') || c == '_'

/-- An ASCII letter, an ASCII digit or the underscore. -/
def inIdentifier (c : Char) : Bool := startsIdentifier c || ('0' ≤ c && c ≤ '9')

/-- The name with an underscore for each character that no identifier holds, and one more in
front where it would not start as an identifier does. -/
def identifier (name : List Char) : List Char :=
  match name.map fun c => if inIdentifier c then c else '_' with
  | [] => ['_']
  | c :: r => if startsIdentifier c then c :: r else '_' :: c :: r

theorem identifier_eq_cons (name : List Char) :
    ∃ c r, identifier name = c :: r ∧ startsIdentifier c = true := by
  unfold identifier
  split
  · exact ⟨_, _, rfl, rfl⟩
  · split
    · exact ⟨_, _, rfl, ‹_›⟩
    · exact ⟨_, _, rfl, rfl⟩

theorem inIdentifier_of_mem_identifier {c : Char} {name : List Char} (h : c ∈ identifier name) :
    inIdentifier c = true := by
  have hm : ∀ d ∈ name.map fun c => if inIdentifier c then c else '_', inIdentifier d = true := by
    intro d hd
    obtain ⟨e, _, rfl⟩ := List.mem_map.1 hd
    split <;> simp_all [inIdentifier, startsIdentifier]
  unfold identifier at h
  split at h
  · simp_all [inIdentifier, startsIdentifier]
  · next d r heq =>
    rw [heq] at hm
    split at h
    · exact hm c h
    · rcases List.mem_cons.1 h with rfl | h
      · rfl
      · exact hm c h

end Atlas.Chars
