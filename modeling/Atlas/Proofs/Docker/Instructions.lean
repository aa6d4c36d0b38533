import Atlas.Docker.Dockerfile
import Atlas.Proofs.Words

/-!
# Instructions of Dockerfiles

A line gives an instruction its arguments if it is the word of the instruction in any case, then
blanks, then the arguments (`Instruction.Gives`). No word starts with another one, so a line gives
arguments to one instruction at most (`Instruction.Gives.unique`), and it does not matter which
instruction is tried first (`Instruction.firstOf?_congr`, `Dockerfile.readBy_congr`).

Every line with an image, variables or ports names one at least, and so does a line with volumes
unless it is an empty list (`exists_fromParts?`, `envVariables_ne_nil`, `words_ne_nil`,
`jsonWords?_of_listOrWords`).
-/

set_option linter.unusedSectionVars false

namespace Atlas.Docker

/-! ## Texts that start with no blank -/

/-- The text starts with a character that is not blank. -/
def StartsBare (s : List Char) : Prop :=
  ∃ c ∈ s.head?, Chars.isBlank c = false

theorem startsBare_iff {s : List Char} :
    StartsBare s ↔ ∃ c r, s = c :: r ∧ Chars.isBlank c = false := by
  cases s <;> simp [StartsBare]

theorem startsBare_trimStart {s : List Char} (h : Chars.trimStart s ≠ []) :
    StartsBare (Chars.trimStart s) := by
  obtain ⟨c, r, hs⟩ := List.exists_cons_of_ne_nil h
  exact startsBare_iff.2 ⟨c, r, hs, Chars.isBlank_head_trimStart hs⟩

/-- Of blanks and a text that starts with none the blanks are trimmed. -/
theorem trimStart_append {blanks s : List Char} (hb : ∀ c ∈ blanks, Chars.isBlank c = true)
    (hs : StartsBare s) : Chars.trimStart (blanks ++ s) = s := by
  obtain ⟨c, r, rfl, hc⟩ := startsBare_iff.1 hs
  rw [Chars.trimStart, List.dropWhile_append_of_pos hb, List.dropWhile_cons_of_neg (by simp [hc])]

theorem StartsBare.trim {s : List Char} (h : StartsBare s) : StartsBare (Chars.trim s) := by
  obtain ⟨c, r, rfl, hc⟩ := startsBare_iff.1 h
  rw [Chars.trim_eq, Chars.trimStart, List.dropWhile_cons_of_neg (by simp [hc]),
    Chars.trimEnd_cons_of_not_isBlank hc]
  exact ⟨c, rfl, hc⟩

theorem words_ne_nil {s : List Char} (h : StartsBare s) : Chars.words s ≠ [] := by
  obtain ⟨c, r, rfl, hc⟩ := startsBare_iff.1 h
  intro hnil
  have hblank := Chars.words_eq_nil_iff.1 hnil c List.mem_cons_self
  simp [hc] at hblank

/-! ## Lines -/

/-- A statement of a Dockerfile : an instruction and its arguments. -/
abbrev Statement := Instruction × List Char

namespace Instruction

/-- The line is the word of the instruction in any case, then blanks, then the arguments. -/
def Gives (i : Instruction) (line args : List Char) : Prop :=
  ∃ word blanks, line = word ++ (blanks ++ args) ∧ sameWord i.word.toList word = true ∧
    blanks ≠ [] ∧ (∀ c ∈ blanks, Chars.isBlank c = true) ∧ StartsBare args

variable {i j : Instruction} {line args args' : List Char}

theorem Gives.startsBare (h : i.Gives line args) : StartsBare args := by
  obtain ⟨-, -, -, -, -, -, hargs⟩ := h
  exact hargs

theorem argumentsOf?_eq_some_iff :
    argumentsOf? i.word.toList line = some args ↔ i.Gives line args := by
  have hdef : argumentsOf? i.word.toList line =
      if sameWord i.word.toList (line.take i.word.toList.length) ∧
          (line.drop i.word.toList.length).head?.any Chars.isBlank ∧
          Chars.trimStart (line.drop i.word.toList.length) ≠ [] then
        some (Chars.trimStart (line.drop i.word.toList.length)) else none := rfl
  rw [hdef, Option.ite_none_right_eq_some, Option.some.injEq]
  constructor
  · rintro ⟨⟨hword, hblank, hne⟩, rfl⟩
    refine ⟨_, (line.drop i.word.toList.length).takeWhile Chars.isBlank, ?_, hword, ?_,
      fun c => List.mem_takeWhile_imp, startsBare_trimStart hne⟩
    · rw [Chars.trimStart, List.takeWhile_append_dropWhile, List.take_append_drop]
    · cases hr : line.drop i.word.toList.length with
      | nil => simp [hr] at hblank
      | cons c r =>
        rw [List.takeWhile_cons_of_pos (by simpa [hr] using hblank)]
        exact List.cons_ne_nil _ _
  · rintro ⟨word, blanks, rfl, hword, hne, hblanks, hargs⟩
    have hlen : i.word.toList.length = word.length := by
      simpa using congrArg List.length (beq_iff_eq.1 hword)
    obtain ⟨b, bs, rfl⟩ := List.exists_cons_of_ne_nil hne
    rw [hlen, List.take_left, List.drop_left, trimStart_append hblanks hargs]
    refine ⟨⟨hword, by simp [hblanks b List.mem_cons_self], ?_⟩, rfl⟩
    rintro rfl
    obtain ⟨c, hc, -⟩ := hargs
    cases hc

theorem mem_all (i : Instruction) : i ∈ all := by
  cases i <;> decide

/-- No word starts with another one. -/
theorem eq_of_word_starts (h : i.word.toList.map Chars.fold <+: j.word.toList.map Chars.fold) :
    i = j := by
  have hall : ∀ i ∈ all, ∀ j ∈ all,
      i.word.toList.map Chars.fold <+: j.word.toList.map Chars.fold → i = j := by
    decide +kernel
  exact hall i (mem_all i) j (mem_all j) h

/-- A line starts with the word of the instruction it gives arguments to. -/
theorem Gives.prefix_fold (h : i.Gives line args) :
    i.word.toList.map Chars.fold <+: line.map Chars.fold := by
  obtain ⟨word, blanks, rfl, hword, -⟩ := h
  rw [beq_iff_eq.1 hword, List.map_append]
  exact List.prefix_append _ _

/-- A line gives arguments to one instruction at most, and just one text of arguments. -/
theorem Gives.unique (h : i.Gives line args) (h' : j.Gives line args') :
    i = j ∧ args = args' := by
  obtain rfl : i = j := by
    rcases List.prefix_or_prefix_of_prefix h.prefix_fold h'.prefix_fold with hij | hji
    · exact eq_of_word_starts hij
    · exact (eq_of_word_starts hji).symm
  rw [← argumentsOf?_eq_some_iff] at h h'
  exact ⟨rfl, Option.some.inj (h.symm.trans h')⟩

/-! ## The order of the rules -/

/-- The statement of a line by the first of some instructions that it gives arguments to. -/
def firstOf? (rules : List Instruction) (line : List Char) : Option Statement :=
  rules.findSome? fun i => (argumentsOf? i.word.toList line).map fun args => (i, args)

theorem firstOf?_eq_some_iff {rules : List Instruction} :
    firstOf? rules line = some (i, args) ↔ i ∈ rules ∧ i.Gives line args := by
  have hgives : ∀ {s : Statement}, firstOf? rules line = some s →
      s.1 ∈ rules ∧ s.1.Gives line s.2 := by
    intro s hs
    obtain ⟨j, hj, hmap⟩ := List.exists_of_findSome?_eq_some hs
    obtain ⟨b, hb, rfl⟩ := Option.map_eq_some_iff.1 hmap
    exact ⟨hj, argumentsOf?_eq_some_iff.1 hb⟩
  refine ⟨hgives, fun ⟨hi, h⟩ => ?_⟩
  cases hs : firstOf? rules line with
  | none =>
    have hnone := List.findSome?_eq_none_iff.1 hs i hi
    rw [argumentsOf?_eq_some_iff.2 h] at hnone
    cases hnone
  | some s =>
    obtain ⟨hi, hargs⟩ := h.unique (hgives hs).2
    rw [hi, hargs]

/-- The same instructions give the same statement in any order. -/
theorem firstOf?_congr {rules rules' : List Instruction} (h : ∀ i, i ∈ rules ↔ i ∈ rules')
    (line : List Char) : firstOf? rules line = firstOf? rules' line := by
  refine Option.ext fun s => ?_
  rw [firstOf?_eq_some_iff, firstOf?_eq_some_iff, h]

theorem ofLine?_eq_some_iff : ofLine? line = some (i, args) ↔ i.Gives line args :=
  firstOf?_eq_some_iff.trans (and_iff_right (mem_all i))

end Instruction

namespace Dockerfile

/-- The file after a line, by instructions that are tried in order. -/
def applyBy (rules : List Instruction) (f : Dockerfile) (line : List Char) : Dockerfile :=
  match Instruction.firstOf? rules line with
  | some (i, args) => f.run i args
  | none => f

/-- The record of a text, by instructions that are tried in order on each line. -/
def readBy (rules : List Instruction) (path text : String) : Dockerfile :=
  (logicalLines text.toList).foldl (applyBy rules) { path }

theorem readBy_all (path text : String) : readBy Instruction.all path text = read path text :=
  rfl

theorem readBy_congr {rules rules' : List Instruction} (h : ∀ i, i ∈ rules ↔ i ∈ rules')
    (path text : String) : readBy rules path text = readBy rules' path text := by
  have hrules : applyBy rules = applyBy rules' := by
    funext f line
    rw [applyBy, applyBy, Instruction.firstOf?_congr h]
  rw [readBy, readBy, hrules]

end Dockerfile

/-! ## Arguments -/

/-- A character that is neither blank nor a quote stands in one of the words. -/
theorem exists_mem_quotedWords {c : Char} {s : List Char} (h : c ∈ s) (hq : c ≠ '"')
    (hb : Chars.isBlank c = false) : ∃ w ∈ quotedWords s, c ∈ w := by
  have hword : ∀ quoted, ∃ w ∈ splitQuoted quoted s, c ∈ w := by
    induction s with
    | nil => cases h
    | cons d r ih =>
      intro quoted
      have hcons : ∀ ws : List (List Char), (∃ w ∈ ws, c ∈ w) → ∃ w ∈ consWord d ws, c ∈ w := by
        rintro (_ | ⟨v, vs⟩) ⟨w, hw, hc⟩
        · cases hw
        · rcases List.mem_cons.1 hw with rfl | hw
          · exact ⟨_, List.mem_cons_self, List.mem_cons_of_mem _ hc⟩
          · exact ⟨w, List.mem_cons_of_mem _ hw, hc⟩
      rw [splitQuoted]
      rcases List.mem_cons.1 h with rfl | h
      · rw [if_neg hq, if_neg (by simp [hb])]
        cases splitQuoted quoted r <;> exact ⟨_, List.mem_cons_self, List.mem_cons_self⟩
      · split_ifs
        · exact ih h _
        · obtain ⟨w, hw, hc⟩ := ih h quoted
          exact ⟨w, List.mem_cons_of_mem _ hw, hc⟩
        · exact hcons _ (ih h quoted)
  obtain ⟨w, hw, hc⟩ := hword false
  refine ⟨w, List.mem_filter.2 ⟨hw, ?_⟩, hc⟩
  cases w with
  | nil => cases hc
  | cons _ _ => rfl

/-- A line with variables gives one at least. -/
theorem envVariables_ne_nil (args : List Char) : envVariables args ≠ [] := by
  rw [envVariables]
  dsimp only
  split_ifs with h
  · have hmem : '=' ∈ Chars.trim args := List.takeWhile_subset _ (by simpa using h)
    obtain ⟨w, hw, hc⟩ := exists_mem_quotedWords hmem (by decide) (by decide)
    obtain ⟨⟨k, v⟩, hcut⟩ := Option.ne_none_iff_exists'.1 fun hnone =>
      Chars.cut?_singleton_eq_none.1 hnone hc
    refine List.ne_nil_of_mem (a := ⟨String.ofList k, String.ofList v⟩)
      (List.mem_filterMap.2 ⟨w, hw, ?_⟩)
    rw [hcut]
    rfl
  · exact List.cons_ne_nil _ _

/-- A line with volumes gives none only if it is an empty list. -/
theorem jsonWords?_of_listOrWords {args : List Char} (h : StartsBare args)
    (hnone : listOrWords args = []) : jsonWords? (Chars.trim args) = some [] := by
  have hwords : (Chars.words (Chars.trim args)).map String.ofList ≠ [] := fun he =>
    words_ne_nil h.trim (List.map_eq_nil_iff.1 he)
  rw [listOrWords] at hnone
  split_ifs at hnone
  · cases hjson : jsonWords? (Chars.trim args) with
    | none =>
      rw [hjson] at hnone
      exact absurd hnone hwords
    | some ws =>
      rw [hjson] at hnone
      rw [← hnone]
      rfl
  · exact absurd hnone hwords

theorem withoutPlatform_subset (ws : List (List Char)) : withoutPlatform ws ⊆ ws := by
  unfold withoutPlatform
  split
  · dsimp only
    split_ifs
    · exact List.subset_cons_self _ _
    · exact List.Subset.refl _
  · exact List.Subset.refl _

theorem withoutPlatform_ne_nil {ws : List (List Char)} (h : ws ≠ []) :
    withoutPlatform ws ≠ [] := by
  unfold withoutPlatform
  split
  · dsimp only
    split_ifs <;> exact List.cons_ne_nil _ _
  · exact h

/-- A line with a stage names an image, and a name it gives to the stage has no blank. -/
theorem exists_fromParts? {args : List Char} (h : StartsBare args) : ∃ base name,
    fromParts? args = some (base, name) ∧ base ≠ "" ∧
      ∀ n ∈ name, ∀ c ∈ n.toList, Chars.isBlank c = false := by
  have hne := withoutPlatform_ne_nil (words_ne_nil h)
  have hword : ∀ w ∈ withoutPlatform (Chars.words args), String.ofList w ≠ "" ∧
      ∀ c ∈ (String.ofList w).toList, Chars.isBlank c = false := fun w hw => by
    have hmem := withoutPlatform_subset _ hw
    refine ⟨fun he => Chars.ne_nil_of_mem_words hmem ?_, fun c hc => ?_⟩
    · rw [← String.toList_ofList (l := w), he]
      rfl
    · rw [String.toList_ofList] at hc
      exact Chars.isBlank_of_mem_words hmem hc
  rw [fromParts?]
  split
  · next hws => exact absurd hws hne
  · next image hws =>
    rw [hws] at hword
    exact ⟨_, _, rfl, (hword image List.mem_cons_self).1, fun n hn => by cases hn⟩
  · next image as hws =>
    rw [hws] at hword
    exact ⟨_, _, rfl, (hword image List.mem_cons_self).1, fun n hn => by cases hn⟩
  · next image as name r hws =>
    rw [hws] at hword
    refine ⟨_, _, rfl, (hword image List.mem_cons_self).1, fun n hn => ?_⟩
    split_ifs at hn
    · obtain rfl := Option.some.inj hn
      exact (hword name (by simp)).2
    · cases hn

end Atlas.Docker
