import Atlas.Docker.Dockerfile
import Atlas.Proofs.Words

/-!
# Logical lines

The raw lines of a text that are no comments fall into groups, each of lines that go on and one that
does not, or the end of the text (`Grouped`). There is just one way to group them (`grouped_iff`).

What is pending when a raw line is read are the lines of the group so far, each without its
backslash and with a space behind it (`pendingOf`). So a group gives one logical line with the words
of its lines, or none if they have no words (`map_words_joinLines`). What is pending has no line
feeds, and neither has a logical line (`isLogicalLine_of_mem_joinLines`).
-/

set_option linter.unusedSectionVars false

namespace Atlas.Docker

variable {raw : List Char} {raws g : List (List Char)} {gs : List (List (List Char))}

/-! ## Raw lines -/

/-- The line counts for nothing. -/
def IsComment (raw : List Char) : Prop :=
  (Chars.trim raw).head? = some '#'

instance (raw : List Char) : Decidable (IsComment raw) :=
  inferInstanceAs (Decidable (_ = _))

/-- The line ends in a backslash, but for blanks. -/
def GoesOn (raw : List Char) : Prop :=
  (Chars.trim raw).getLast? = some '\\'

instance (raw : List Char) : Decidable (GoesOn raw) :=
  inferInstanceAs (Decidable (_ = _))

/-- The raw lines of a text that are no comments. -/
def rawLines (s : List Char) : List (List Char) :=
  (Chars.lines s).filter fun raw => ¬IsComment raw

/-- What a line says, without the backslash at its end if it goes on. -/
def said (raw : List Char) : List Char :=
  if GoesOn raw then (Chars.trim raw).dropLast else raw

/-- The words of some lines. -/
def wordsOf (g : List (List Char)) : List (List Char) :=
  g.flatMap fun raw => Chars.words (said raw)

/-! ## Groups -/

/-- The groups of some lines: lines that go on and one that does not, and at the end lines that go
on only. -/
inductive Grouped : List (List Char) → List (List (List Char)) → Prop
  | nil : Grouped [] []
  | unfinished {g : List (List Char)} (hne : g ≠ []) (hg : ∀ raw ∈ g, GoesOn raw) : Grouped g [g]
  | closed {g rest : List (List Char)} {raw : List Char} {gs : List (List (List Char))}
      (hg : ∀ raw ∈ g, GoesOn raw) (hraw : ¬GoesOn raw) (hrest : Grouped rest gs) :
      Grouped (g ++ raw :: rest) ((g ++ [raw]) :: gs)

/-- The groups of lines that go on and of all lines behind them. -/
def groupsFrom (g : List (List Char)) : List (List Char) → List (List (List Char))
  | [] => if g = [] then [] else [g]
  | raw :: rest =>
    if GoesOn raw then groupsFrom (g ++ [raw]) rest else (g ++ [raw]) :: groupsFrom [] rest

theorem groupsFrom_cons_of_goesOn (h : GoesOn raw) (g rest : List (List Char)) :
    groupsFrom g (raw :: rest) = groupsFrom (g ++ [raw]) rest := by
  rw [groupsFrom, if_pos h]

theorem groupsFrom_cons_of_not_goesOn (h : ¬GoesOn raw) (g rest : List (List Char)) :
    groupsFrom g (raw :: rest) = (g ++ [raw]) :: groupsFrom [] rest := by
  rw [groupsFrom, if_neg h]

theorem groupsFrom_append {h : List (List Char)} (hh : ∀ raw ∈ h, GoesOn raw)
    (g rest : List (List Char)) : groupsFrom g (h ++ rest) = groupsFrom (g ++ h) rest := by
  induction h generalizing g with
  | nil => rw [List.nil_append, List.append_nil]
  | cons raw h ih =>
    obtain ⟨hraw, hh⟩ := List.forall_mem_cons.1 hh
    rw [List.cons_append, groupsFrom_cons_of_goesOn hraw, ih hh, List.append_assoc,
      List.singleton_append]

theorem grouped_groupsFrom (hg : ∀ raw ∈ g, GoesOn raw) (raws : List (List Char)) :
    Grouped (g ++ raws) (groupsFrom g raws) := by
  induction raws generalizing g with
  | nil =>
    rw [groupsFrom, List.append_nil]
    split_ifs with hnil
    · exact hnil ▸ .nil
    · exact .unfinished hnil hg
  | cons raw rest ih =>
    by_cases h : GoesOn raw
    · have hg' := List.forall_mem_append.2 ⟨hg, List.forall_mem_singleton.2 h⟩
      rw [groupsFrom_cons_of_goesOn h, List.append_cons]
      exact ih hg'
    · rw [groupsFrom_cons_of_not_goesOn h]
      exact .closed hg h (ih (List.forall_mem_nil _))

/-- Lines are grouped in one way only. -/
theorem grouped_iff : Grouped raws gs ↔ gs = groupsFrom [] raws := by
  constructor
  · intro h
    induction h with
    | nil => rfl
    | @unfinished g hne hg =>
      rw [← List.append_nil g, groupsFrom_append hg, List.nil_append, List.append_nil, groupsFrom,
        if_neg hne]
    | @closed g rest raw gs hg hraw hrest ih =>
      rw [groupsFrom_append hg, groupsFrom_cons_of_not_goesOn hraw, ← ih, List.nil_append]
  · rintro rfl
    exact grouped_groupsFrom (List.forall_mem_nil _) raws

/-! ## Pending lines -/

theorem goesOn_iff : GoesOn raw ↔ ∃ head, Chars.trim raw = head ++ ['\\'] :=
  List.getLast?_eq_some_iff

/-- What is pending behind lines that go on. -/
def pendingOf (g : List (List Char)) : List Char :=
  g.flatMap fun raw => Chars.trimEnd (said raw) ++ [' ']

theorem pendingOf_concat (g : List (List Char)) (raw : List Char) :
    pendingOf (g ++ [raw]) = pendingOf g ++ Chars.trimEnd (said raw) ++ [' '] := by
  simp [pendingOf]

theorem wordsOf_concat (g : List (List Char)) (raw : List Char) :
    wordsOf (g ++ [raw]) = wordsOf g ++ Chars.words (said raw) := by
  simp [wordsOf]

/-- What is pending has the words of its lines, and they do not run into those that follow. -/
theorem words_pendingOf_append (g : List (List Char)) (t : List Char) :
    Chars.words (pendingOf g ++ t) = wordsOf g ++ Chars.words t := by
  induction g with
  | nil => rfl
  | cons raw g ih =>
    have happend : pendingOf (raw :: g) ++ t =
        Chars.trimEnd (said raw) ++ ' ' :: (pendingOf g ++ t) := by
      simp [pendingOf]
    rw [happend, Chars.words_append_cons (by decide), Chars.words_trimEnd, ih, wordsOf, wordsOf,
      List.flatMap_cons, List.append_assoc]

/-! ## Joined lines -/

/-- A line, unless nothing is left of it. -/
def lineOf (s : List Char) : List (List Char) :=
  if Chars.trim s = [] then [] else [Chars.trim s]

theorem map_words_lineOf (s : List Char) :
    (lineOf s).map Chars.words = [Chars.words s].filter (· ≠ []) := by
  unfold lineOf
  have hnil : Chars.trim s = [] ↔ Chars.words s = [] :=
    Chars.trim_eq_nil_iff.trans Chars.words_eq_nil_iff.symm
  split_ifs with h
  · simp [hnil.1 h]
  · simp [Chars.words_trim, mt hnil.2 h]

theorem joinLines_nil (pending : List Char) : joinLines pending [] = lineOf pending :=
  rfl

theorem joinLines_cons_of_isComment (h : IsComment raw) (pending : List Char)
    (rest : List (List Char)) : joinLines pending (raw :: rest) = joinLines pending rest := by
  rw [joinLines]
  exact if_pos (Or.inl h)

theorem joinLines_cons_of_goesOn (hc : ¬IsComment raw) (h : GoesOn raw) (pending : List Char)
    (rest : List (List Char)) : joinLines pending (raw :: rest) =
      joinLines (pending ++ Chars.trimEnd (said raw) ++ [' ']) rest := by
  have hsaid : said raw = (Chars.trim raw).dropLast := if_pos h
  obtain ⟨head, hhead⟩ := goesOn_iff.1 h
  have hskip : ¬((Chars.trim raw).head? = some '#' ∨ Chars.trim raw = [] ∧ pending = []) :=
    not_or.2 ⟨hc, fun hnil => by simp [hhead] at hnil⟩
  rw [joinLines]
  dsimp only
  rw [if_neg hskip, Chars.dropSuffix?_eq_some_iff.2 hhead, hsaid, hhead, List.dropLast_concat]

theorem joinLines_cons_of_not_goesOn (hc : ¬IsComment raw) (h : ¬GoesOn raw) (pending : List Char)
    (rest : List (List Char)) : joinLines pending (raw :: rest) =
      lineOf (pending ++ Chars.trim raw) ++ joinLines [] rest := by
  have hsuffix : Chars.dropSuffix? ['\\'] (Chars.trim raw) = none :=
    Option.eq_none_iff_forall_ne_some.2 fun head hhead =>
      h (goesOn_iff.2 ⟨head, Chars.dropSuffix?_eq_some_iff.1 hhead⟩)
  rw [joinLines]
  dsimp only
  by_cases hskip : (Chars.trim raw).head? = some '#' ∨ Chars.trim raw = [] ∧ pending = []
  · -- A line of blanks behind no other line says nothing.
    obtain ⟨hnil, rfl⟩ := hskip.resolve_left hc
    rw [if_pos hskip, hnil]
    rfl
  · rw [if_neg hskip, hsuffix, lineOf]
    dsimp only
    split_ifs <;> rfl

/-- The words of the logical lines are those of the groups. -/
theorem map_words_joinLines (hg : ∀ raw ∈ g, GoesOn raw) (raws : List (List Char)) :
    (joinLines (pendingOf g) raws).map Chars.words =
      ((groupsFrom g (raws.filter fun raw => ¬IsComment raw)).map wordsOf).filter (· ≠ []) := by
  have hline : ∀ (g : List (List Char)) (t : List Char),
      (lineOf (pendingOf g ++ t)).map Chars.words =
        [wordsOf g ++ Chars.words t].filter (· ≠ []) := fun g t => by
    rw [map_words_lineOf, words_pendingOf_append]
  induction raws generalizing g with
  | nil =>
    have hend := hline g []
    have hwords : wordsOf g ++ Chars.words [] = wordsOf g := List.append_nil _
    rw [List.append_nil, hwords] at hend
    rw [joinLines_nil, hend, List.filter_nil, groupsFrom]
    split_ifs with hnil
    · rw [hnil]
      rfl
    · rfl
  | cons raw rest ih =>
    by_cases hc : IsComment raw
    · rw [joinLines_cons_of_isComment hc, ih hg, List.filter_cons_of_neg (by simp [hc])]
    rw [List.filter_cons_of_pos (by simp [hc])]
    by_cases h : GoesOn raw
    · have hg' := List.forall_mem_append.2 ⟨hg, List.forall_mem_singleton.2 h⟩
      rw [joinLines_cons_of_goesOn hc h, ← pendingOf_concat, ih hg', groupsFrom_cons_of_goesOn h]
    · have hsaid : said raw = raw := if_neg h
      rw [joinLines_cons_of_not_goesOn hc h, groupsFrom_cons_of_not_goesOn h, List.map_append,
        hline, Chars.words_trim, List.map_cons, wordsOf_concat, hsaid]
      exact (congrArg _ (ih (List.forall_mem_nil _))).trans (List.filter_append [_] _).symm

/-! ## Logical lines -/

/-- A line that is not empty, without blanks at its ends and without line feeds. -/
structure IsLogicalLine (line : List Char) : Prop where
  ne_nil : line ≠ []
  trimmed : Chars.trim line = line
  oneLine : '\n' ∉ line

theorem isLogicalLine_of_mem_lineOf {s line : List Char} (hs : '\n' ∉ s) (h : line ∈ lineOf s) :
    IsLogicalLine line := by
  unfold lineOf at h
  split_ifs at h with hnil
  · cases h
  · obtain rfl := List.mem_singleton.1 h
    exact ⟨hnil, Chars.trim_trim s, fun hfeed => hs ((Chars.isInfix_trimWhile _ s).subset hfeed)⟩

theorem isLogicalLine_of_mem_joinLines {pending line : List Char} (hp : '\n' ∉ pending)
    (hraws : ∀ raw ∈ raws, '\n' ∉ raw) (h : line ∈ joinLines pending raws) :
    IsLogicalLine line := by
  induction raws generalizing pending with
  | nil => exact isLogicalLine_of_mem_lineOf hp h
  | cons raw rest ih =>
    obtain ⟨hraw, hrest⟩ := List.forall_mem_cons.1 hraws
    have htrim : '\n' ∉ Chars.trim raw := fun hfeed =>
      hraw ((Chars.isInfix_trimWhile _ raw).subset hfeed)
    by_cases hc : IsComment raw
    · rw [joinLines_cons_of_isComment hc] at h
      exact ih hp hrest h
    by_cases hgoes : GoesOn raw
    · rw [joinLines_cons_of_goesOn hc hgoes] at h
      have hsaid : said raw = (Chars.trim raw).dropLast := if_pos hgoes
      have hhead : '\n' ∉ Chars.trimEnd (said raw) := fun hfeed =>
        htrim (List.dropLast_subset _ (hsaid ▸ (Chars.isPrefix_trimEndWhile _ _).subset hfeed))
      refine ih ?_ hrest h
      simp [hp, hhead]
    · rw [joinLines_cons_of_not_goesOn hc hgoes] at h
      rcases List.mem_append.1 h with h | h
      · exact isLogicalLine_of_mem_lineOf (fun hfeed => (List.mem_append.1 hfeed).elim hp htrim) h
      · exact ih List.not_mem_nil hrest h

/-- The logical lines of a text are those of the groups of its raw lines, in order : a group has one
with its words, or none if it has no words. -/
theorem lines_joined (s : List Char) :
    (∃ gs, (∀ gs', Grouped (rawLines s) gs' ↔ gs' = gs) ∧
      (logicalLines s).map Chars.words = (gs.map wordsOf).filter (· ≠ [])) ∧
    ∀ line ∈ logicalLines s, IsLogicalLine line :=
  ⟨⟨groupsFrom [] (rawLines s), fun _ => grouped_iff,
      map_words_joinLines (List.forall_mem_nil _) (Chars.lines s)⟩,
    fun _ => isLogicalLine_of_mem_joinLines List.not_mem_nil
      fun _ => Chars.feed_notMem_of_mem_lines⟩

/-- A comment does not end a line that goes on, and blanks do. -/
example : logicalLines "RUN a && \\\n# note\n  b\nEXPOSE 80 \\\n\nUSER app\n".toList =
    ["RUN a && b".toList, "EXPOSE 80".toList, "USER app".toList] := by
  decide +kernel

end Atlas.Docker
