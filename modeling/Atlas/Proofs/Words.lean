import Atlas.Proofs.Text
import Mathlib.Algebra.GroupWithZero.Nat
import Mathlib.Data.List.DropRight
import Mathlib.Data.List.TakeWhile

/-!
# Words and blanks

Trimming takes blanks away, and leaves a text that is trimmed (`Chars.exists_trim`,
`Chars.trim_trim`), which is one with no blank at either end (`Chars.trim_eq_self_iff`). The words
of a text are what stands between its blanks (`Chars.words_eq`), so a text that is cut at a blank
has the words of both parts (`Chars.words_append_cons`), and trimming takes no word away
(`Chars.words_trim`). A text without words is one of blanks (`Chars.words_eq_nil_iff`), of which
trimming leaves nothing (`Chars.trim_eq_nil_iff`).
-/

set_option linter.unusedSectionVars false

namespace Atlas

namespace Chars

variable {c : Char} {s t : List Char}

/-! ## Trimming -/

theorem trimEndWhile_cons (p : Char → Bool) (c : Char) (r : List Char) :
    trimEndWhile p (c :: r) =
      if trimEndWhile p r = [] ∧ p c = true then [] else c :: trimEndWhile p r := by
  rw [trimEndWhile]
  split
  · next hnil => simp [hnil]
  · next hne => rw [if_neg fun h => hne h.1]

theorem trimEndWhile_eq_rdropWhile (p : Char → Bool) (s : List Char) :
    trimEndWhile p s = s.rdropWhile p := by
  induction s with
  | nil => rfl
  | cons c r ih =>
    rw [trimEndWhile_cons, ih, List.rdropWhile, List.rdropWhile, List.reverse_cons,
      List.dropWhile_append, List.dropWhile_cons, List.dropWhile_nil]
    cases r.reverse.dropWhile p <;> cases p c <;> simp

theorem trimWhile_eq (p : Char → Bool) (s : List Char) :
    trimWhile p s = (s.dropWhile p).rdropWhile p :=
  trimEndWhile_eq_rdropWhile p _

theorem dropWhile_of_trimWhile {p : Char → Bool} (h : trimWhile p s = s) : s.dropWhile p = s := by
  refine (List.dropWhile_suffix p).eq_of_length_le ?_
  conv_lhs => rw [← h]
  exact (isPrefix_trimEndWhile p _).length_le

/-- A text is trimmed if none of what is trimmed stands at either end. -/
theorem trimWhile_eq_self_iff {p : Char → Bool} : trimWhile p s = s ↔
    (∀ c ∈ s.head?, p c = false) ∧ ∀ c ∈ s.getLast?, p c = false := by
  constructor
  · intro h
    have hstart := dropWhile_of_trimWhile h
    rw [trimWhile_eq, hstart, List.rdropWhile_eq_self_iff] at h
    refine ⟨fun c hc => ?_, fun c hc => ?_⟩
    · obtain ⟨r, rfl⟩ := List.head?_eq_some_iff.1 hc
      simpa using List.dropWhile_eq_self_iff.1 hstart (Nat.succ_pos _)
    · obtain ⟨r, rfl⟩ := List.getLast?_eq_some_iff.1 hc
      simpa using h
  · rintro ⟨hhead, hlast⟩
    have hstart : s.dropWhile p = s := by
      cases s with
      | nil => rfl
      | cons c r => rw [List.dropWhile_cons_of_neg (by simp [hhead c rfl])]
    rw [trimWhile_eq, hstart, List.rdropWhile_eq_self_iff]
    intro hne
    simpa using hlast _ (List.getLast_mem_getLast? hne)

theorem trimWhile_trimWhile (p : Char → Bool) (s : List Char) :
    trimWhile p (trimWhile p s) = trimWhile p s := by
  refine trimWhile_eq_self_iff.2 ⟨fun c hc => ?_, fun c hc => ?_⟩ <;> rw [trimWhile_eq] at hc
  · obtain ⟨r, hr⟩ := List.head?_eq_some_iff.1 hc
    have hstart : (s.dropWhile p).head? = some c := by
      obtain ⟨t, ht⟩ := List.rdropWhile_prefix p (l := s.dropWhile p)
      rw [← ht, hr]
      rfl
    have hnot := List.head?_dropWhile_not p s
    rw [hstart] at hnot
    simpa using hnot
  · obtain ⟨r, hr⟩ := List.getLast?_eq_some_iff.1 hc
    have hnot := List.rdropWhile_last_not p (s.dropWhile p) (by simp [hr])
    simpa [hr] using hnot

/-- What is trimmed does not count where it stands at both ends. -/
theorem trimWhile_surround {p : Char → Bool} {q : Char} (hq : p q = true) (s : List Char) :
    trimWhile p (q :: (s ++ [q])) = trimWhile p s := by
  rw [trimWhile_eq, List.dropWhile_cons_of_pos hq, List.dropWhile_append, trimWhile_eq]
  split_ifs with h
  · simp [List.isEmpty_iff.1 h, hq]
  · exact List.rdropWhile_concat_pos p _ _ hq

theorem trimEnd_cons (c : Char) (r : List Char) :
    trimEnd (c :: r) = if trimEnd r = [] ∧ isBlank c = true then [] else c :: trimEnd r :=
  trimEndWhile_cons isBlank c r

theorem trimEnd_cons_of_not_isBlank (h : isBlank c = false) (r : List Char) :
    trimEnd (c :: r) = c :: trimEnd r := by
  rw [trimEnd_cons, if_neg fun hc => by simp [h] at hc]

/-- What is trimmed at the end are blanks. -/
theorem exists_trimEnd (s : List Char) :
    ∃ trail, s = trimEnd s ++ trail ∧ ∀ c ∈ trail, isBlank c = true := by
  induction s with
  | nil => exact ⟨[], rfl, List.forall_mem_nil _⟩
  | cons c r ih =>
    obtain ⟨trail, hr, htrail⟩ := ih
    rw [trimEnd_cons]
    split_ifs with h
    · obtain ⟨hnil, hc⟩ := h
      rw [hnil, List.nil_append] at hr
      exact ⟨c :: trail, by rw [← hr]; rfl, List.forall_mem_cons.2 ⟨hc, htrail⟩⟩
    · exact ⟨trail, by rw [List.cons_append, ← hr], htrail⟩

/-- What is trimmed are blanks. -/
theorem exists_trim (s : List Char) : ∃ lead trail, s = lead ++ (trim s ++ trail) ∧
    (∀ c ∈ lead, isBlank c = true) ∧ ∀ c ∈ trail, isBlank c = true := by
  obtain ⟨trail, htrail, hblank⟩ := exists_trimEnd (s.dropWhile isBlank)
  refine ⟨s.takeWhile isBlank, trail, ?_, fun c => List.mem_takeWhile_imp, hblank⟩
  rw [trim, trimWhile, ← trimEnd, ← htrail, List.takeWhile_append_dropWhile]

theorem trim_eq (s : List Char) : trim s = trimEnd (trimStart s) :=
  rfl

theorem trim_trim (s : List Char) : trim (trim s) = trim s :=
  trimWhile_trimWhile isBlank s

theorem trim_cons_of_isBlank (hc : isBlank c = true) (s : List Char) :
    trim (c :: s) = trim s := by
  rw [trim_eq, trimStart, List.dropWhile_cons_of_pos hc, trim_eq, trimStart]

theorem trim_append_of_isBlank_left (hs : ∀ c ∈ s, isBlank c = true) (t : List Char) :
    trim (s ++ t) = trim t := by
  rw [trim_eq, trimStart, List.dropWhile_append_of_pos hs, ← trimStart, ← trim_eq]

theorem trim_eq_nil_iff : trim s = [] ↔ ∀ c ∈ s, isBlank c = true := by
  constructor
  · intro h
    obtain ⟨lead, trail, hs, hlead, htrail⟩ := exists_trim s
    rw [hs, h, List.nil_append]
    exact List.forall_mem_append.2 ⟨hlead, htrail⟩
  · intro h
    rw [trim_eq, trimStart, List.dropWhile_eq_nil_iff.2 h]
    rfl

/-- A text is trimmed if no blank stands at either end. -/
theorem trim_eq_self_iff : trim s = s ↔
    (∀ c ∈ s.head?, isBlank c = false) ∧ ∀ c ∈ s.getLast?, isBlank c = false :=
  trimWhile_eq_self_iff

theorem count_trimEnd {c : Char} (hc : isBlank c = false) (s : List Char) :
    (trimEnd s).count c = s.count c := by
  obtain ⟨trail, hs, htrail⟩ := exists_trimEnd s
  have hzero : trail.count c = 0 := List.count_eq_zero.2 fun h => by simp [htrail c h] at hc
  conv_rhs => rw [hs, List.count_append, hzero, Nat.add_zero]

theorem count_trimStart {c : Char} (hc : isBlank c = false) (s : List Char) :
    (trimStart s).count c = s.count c := by
  have hs : s.takeWhile isBlank ++ trimStart s = s := List.takeWhile_append_dropWhile
  have hzero : (s.takeWhile isBlank).count c = 0 := List.count_eq_zero.2 fun h => by
    simp [List.mem_takeWhile_imp h] at hc
  conv_rhs => rw [← hs, List.count_append, hzero, Nat.zero_add]

/-- Trimming takes nothing but blanks away. -/
theorem count_trim {c : Char} (hc : isBlank c = false) (s : List Char) :
    (trim s).count c = s.count c := by
  rw [trim_eq, count_trimEnd hc, count_trimStart hc]

theorem count_join {c : Char} {sep : List Char} (hsep : c ∉ sep) (ws : List (List Char)) :
    (join sep ws).count c = (ws.map (·.count c)).sum := by
  induction ws with
  | nil => rfl
  | cons w ws ih =>
    cases ws with
    | nil => simp [join]
    | cons v ws =>
      rw [join_cons_of_ne_nil _ _ (List.cons_ne_nil v ws), List.count_append, List.count_append,
        List.count_eq_zero.2 hsep, ih, Nat.add_zero]
      rfl

/-! ## Words -/

/-- The words are the pieces between the blanks, as far as they are not empty. -/
theorem words_eq (s : List Char) : words s = (s.splitOnP isBlank).filter (· ≠ []) := by
  induction s with
  | nil => rfl
  | cons c r ih =>
    rw [words.eq_def, List.splitOnP_cons_eq_if_modifyHead]
    dsimp only
    split_ifs with hc
    · simp [ih]
    cases r with
    | nil => simp
    | cons d r =>
      obtain ⟨w, ws, hw⟩ := List.exists_cons_of_ne_nil (List.splitOnP_ne_nil isBlank (d :: r))
      rw [ih, hw]
      rw [List.splitOnP_cons_eq_if_modifyHead] at hw
      dsimp only
      split_ifs at hw ⊢ with hd
      · obtain ⟨rfl, rfl⟩ := List.cons.inj hw
        simp
      · obtain ⟨v, vs, hv⟩ := List.exists_cons_of_ne_nil (List.splitOnP_ne_nil isBlank r)
        rw [hv, List.modifyHead_cons] at hw
        obtain ⟨rfl, rfl⟩ := List.cons.inj hw
        simp

/-- A text that is cut at a blank has the words of both parts. -/
theorem words_append_cons (hc : isBlank c = true) (s t : List Char) :
    words (s ++ c :: t) = words s ++ words t := by
  rw [words_eq, List.splitOnP_append_cons s t hc, List.filter_append, ← words_eq, ← words_eq]

theorem words_cons_of_isBlank (hc : isBlank c = true) (s : List Char) :
    words (c :: s) = words s :=
  words_append_cons hc [] s

theorem words_append_of_isBlank_left (hs : ∀ c ∈ s, isBlank c = true) (t : List Char) :
    words (s ++ t) = words t := by
  induction s with
  | nil => rfl
  | cons c s ih =>
    obtain ⟨hc, hs⟩ := List.forall_mem_cons.1 hs
    rw [List.cons_append, words_cons_of_isBlank hc, ih hs]

theorem words_of_isBlank (hs : ∀ c ∈ s, isBlank c = true) : words s = [] := by
  rw [← List.append_nil s, words_append_of_isBlank_left hs]
  rfl

theorem words_append_of_isBlank_right (ht : ∀ c ∈ t, isBlank c = true) (s : List Char) :
    words (s ++ t) = words s := by
  cases t with
  | nil => rw [List.append_nil]
  | cons c t =>
    obtain ⟨hc, ht⟩ := List.forall_mem_cons.1 ht
    rw [words_append_cons hc, words_of_isBlank ht, List.append_nil]

theorem words_trimEnd (s : List Char) : words (trimEnd s) = words s := by
  obtain ⟨trail, hs, htrail⟩ := exists_trimEnd s
  conv_rhs => rw [hs, words_append_of_isBlank_right htrail]

theorem words_trim (s : List Char) : words (trim s) = words s := by
  obtain ⟨lead, trail, hs, hlead, htrail⟩ := exists_trim s
  conv_rhs => rw [hs]
  rw [words_append_of_isBlank_left hlead, words_append_of_isBlank_right htrail]

/-- Just the texts of blanks have no words. -/
theorem words_eq_nil_iff : words s = [] ↔ ∀ c ∈ s, isBlank c = true := by
  refine ⟨fun h => ?_, words_of_isBlank⟩
  induction s with
  | nil => exact List.forall_mem_nil _
  | cons c r ih =>
    cases hc : isBlank c with
    | true =>
      rw [words_cons_of_isBlank hc] at h
      exact List.forall_mem_cons.2 ⟨hc, ih h⟩
    | false =>
      obtain ⟨w, ws, hw⟩ := List.exists_cons_of_ne_nil (List.splitOnP_ne_nil isBlank r)
      simp [words_eq, List.splitOnP_cons_eq_if_modifyHead, hc, hw] at h

end Chars

namespace Text

variable {s t : String}

theorem toList_trim (s : String) : (trim s).toList = Chars.trim s.toList :=
  String.toList_ofList

/-- A text is trimmed if no blank stands at either end. -/
theorem trim_eq_self_iff : trim s = s ↔ (∀ c ∈ s.toList.head?, Chars.isBlank c = false) ∧
    ∀ c ∈ s.toList.getLast?, Chars.isBlank c = false := by
  rw [← Chars.trim_eq_self_iff, ← String.toList_inj, toList_trim]

theorem trim_trim (s : String) : trim (trim s) = trim s := by
  rw [← String.toList_inj, toList_trim, toList_trim, Chars.trim_trim]

theorem trimStart_of_trim (h : trim s = s) : trimStart s = s := by
  have hs : Chars.trim s.toList = s.toList := by
    rwa [← String.toList_inj, toList_trim] at h
  rw [trimStart, onChars, Chars.trimStart, Chars.dropWhile_of_trimWhile hs, String.ofList_toList]

theorem trim_space_append (s : String) : trim (" " ++ s) = trim s := by
  rw [trim, onChars, String.toList_append]
  exact congrArg String.ofList (Chars.trim_cons_of_isBlank rfl s.toList)

/-- A trimmed text is so with a text in front that starts with no blank. -/
theorem trim_append (hs : ∀ c ∈ s.toList.head?, Chars.isBlank c = false) (ht : trim t = t)
    (hne : t ≠ "") : trim (s ++ t) = s ++ t := by
  obtain ⟨hhead, hlast⟩ := trim_eq_self_iff.1 ht
  refine trim_eq_self_iff.2 ⟨fun c hc => ?_, fun c hc => hlast c ?_⟩
  · rw [String.toList_append, List.head?_append] at hc
    cases h : s.toList.head? with
    | none => exact hhead c (by rwa [h, Option.none_or] at hc)
    | some d => exact hs c (by rwa [h] at hc ⊢)
  · rwa [String.toList_append, List.getLast?_append_of_ne_nil _ (mt String.toList_eq_nil_iff.1 hne)]
      at hc

end Text

end Atlas
