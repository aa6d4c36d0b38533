import Atlas.Text
import Mathlib.Data.List.Infix
import Mathlib.Data.String.Basic
import Mathlib.Tactic.SplitIfs

/-!
# Pieces and lines of texts

A text occurs in another one if it is an infix of it (`Text.contains_iff`). What is put together
with a mark between is cut there again (`Text.splitOn_intercalate`). The lines of a text that is put
together from others (`Text.unlines`) are the lines of these, one after another
(`Text.lines_unlines`), and a text without line ends is one line (`OneLine`).
-/

namespace Atlas

/-! ## Pieces -/

namespace Chars

theorem contains_iff {p s : List Char} : contains p s = true ↔ p <:+: s := by
  rw [contains]
  induction s with
  | nil =>
    rw [cut?, List.infix_nil]
    split_ifs with h <;> simp [h]
  | cons c r ih =>
    rw [cut?, dropPrefix?, List.infix_cons_iff, ← List.isPrefixOf_iff_prefix]
    cases h : startsWith p (c :: r) with
    | true => simp [startsWith] at h; simp [h]
    | false => simp [startsWith] at h; simp [h, ih]

theorem dropPrefix?_append (p s : List Char) : dropPrefix? p (p ++ s) = some s := by
  rw [dropPrefix?, startsWith, if_pos (List.isPrefixOf_iff_prefix.2 (List.prefix_append p s)),
    List.drop_left]

theorem dropPrefix?_eq_none {p s : List Char} (h : ¬p <+: s) : dropPrefix? p s = none :=
  if_neg (mt List.isPrefixOf_iff_prefix.1 h)

theorem dropPrefix?_eq_some_iff {p s t : List Char} : dropPrefix? p s = some t ↔ s = p ++ t := by
  constructor
  · intro h
    rw [dropPrefix?, Option.ite_none_right_eq_some] at h
    obtain ⟨r, rfl⟩ := List.isPrefixOf_iff_prefix.1 h.1
    rw [List.drop_left, Option.some.injEq] at h
    rw [h.2]
  · rintro rfl
    exact dropPrefix?_append p t

theorem dropSuffix?_eq_some_iff {p s t : List Char} : dropSuffix? p s = some t ↔ s = t ++ p := by
  rw [dropSuffix?, Option.ite_none_right_eq_some, endsWith, List.isSuffixOf_iff_suffix]
  constructor
  · rintro ⟨⟨r, rfl⟩, h⟩
    simpa using h
  · rintro rfl
    exact ⟨List.suffix_append t p, by simp⟩

theorem cut?_eq_none {sep s : List Char} : cut? sep s = none ↔ ¬sep <:+: s := by
  rw [← contains_iff, contains, Option.not_isSome_iff_eq_none]

/-- A text is cut at the first place where the mark stands. -/
theorem cut?_eq_some_iff {sep : List Char} (hsep : sep ≠ []) {s a b : List Char} :
    cut? sep s = some (a, b) ↔ s = a ++ sep ++ b ∧ ¬sep <:+: a ++ sep.dropLast := by
  have hdrop : ∀ c a b, c :: (a ++ sep.dropLast) <+: c :: (a ++ sep ++ b) := fun c a b => by
    rw [List.prefix_cons_inj, List.append_assoc, List.prefix_append_right_inj]
    exact sep.dropLast_prefix.trans (List.prefix_append _ _)
  induction s generalizing a b with
  | nil => simp [cut?, hsep]
  | cons c r ih =>
    rw [cut?]
    cases hp : dropPrefix? sep (c :: r) with
    | some rest =>
      have hr := dropPrefix?_eq_some_iff.1 hp
      cases a with
      | nil =>
        have hshort : ¬sep <:+: sep.dropLast := fun h => by
          have hlength := h.length_le
          have hpos := List.length_pos_of_ne_nil hsep
          rw [List.length_dropLast] at hlength
          omega
        simp [hr, hshort, eq_comm]
      | cons d a =>
        refine iff_of_false (by simp) fun ⟨hs, hfirst⟩ => hfirst (List.IsPrefix.isInfix ?_)
        have hstart : sep <+: d :: (a ++ sep ++ b) := ⟨rest, by rw [← hr, hs]; rfl⟩
        refine List.prefix_of_prefix_length_le hstart (hdrop d a b) ?_
        simp only [List.length_cons, List.length_append, List.length_dropLast]
        omega
    | none =>
      have hprefix : ¬sep <+: c :: r := fun ⟨t, ht⟩ => by
        rw [dropPrefix?_eq_some_iff.2 ht.symm] at hp
        cases hp
      cases a with
      | nil =>
        refine iff_of_false (by simp) fun ⟨hs, _⟩ => hprefix ?_
        rw [hs]
        exact List.prefix_append _ _
      | cons d a =>
        have hcut : ∀ o : Option (List Char × List Char), (o.map fun p => (c :: p.1, p.2)) =
            some (d :: a, b) ↔ c = d ∧ o = some (a, b) := fun o => by
          cases o with
          | none => simp
          | some parts => simp [Prod.ext_iff, and_assoc]
        refine (hcut _).trans ((and_congr_right fun _ => ih).trans ?_)
        constructor
        · rintro ⟨rfl, rfl, hfirst⟩
          exact ⟨rfl, fun h => (List.infix_cons_iff.1 h).elim
            (fun h => hprefix (h.trans (hdrop c a b))) hfirst⟩
        · rintro ⟨hs, hfirst⟩
          obtain ⟨rfl, rfl⟩ := List.cons.inj hs
          exact ⟨rfl, rfl, fun h => hfirst (h.trans (List.suffix_cons _ _).isInfix)⟩

theorem cut?_singleton_eq_none {c : Char} {s : List Char} : cut? [c] s = none ↔ c ∉ s := by
  rw [cut?_eq_none, List.singleton_infix_iff]

/-- A text is cut at the first place where the character stands. -/
theorem cut?_singleton_eq_some_iff {c : Char} {s a b : List Char} :
    cut? [c] s = some (a, b) ↔ s = a ++ c :: b ∧ c ∉ a := by
  rw [cut?_eq_some_iff (List.cons_ne_nil _ _)]
  simp [List.singleton_infix_iff]

theorem cutLast?_eq_none {c : Char} {s : List Char} : cutLast? c s = none ↔ c ∉ s := by
  induction s with
  | nil => simp [cutLast?]
  | cons d r ih =>
    rw [cutLast?, List.mem_cons, not_or, ← ih]
    cases cutLast? c r with
    | some p => simp
    | none => simp [eq_comm]

/-- A text is cut at the last place where the character stands. -/
theorem cutLast?_eq_some_iff {c : Char} {s a b : List Char} :
    cutLast? c s = some (a, b) ↔ s = a ++ c :: b ∧ c ∉ b := by
  constructor
  · intro h
    induction s generalizing a with
    | nil => cases h
    | cons d r ih =>
      rw [cutLast?] at h
      cases hr : cutLast? c r with
      | some p =>
        rw [hr] at h
        obtain ⟨rfl, rfl⟩ := Prod.mk.inj (Option.some.inj h)
        obtain ⟨hs, hb⟩ := ih hr
        exact ⟨by rw [hs, List.cons_append], hb⟩
      | none =>
        rw [hr] at h
        obtain ⟨rfl, hsome⟩ := Option.ite_none_right_eq_some.1 h
        obtain ⟨rfl, rfl⟩ := Prod.mk.inj (Option.some.inj hsome)
        exact ⟨rfl, cutLast?_eq_none.1 hr⟩
  · rintro ⟨rfl, hb⟩
    induction a with
    | nil => rw [List.nil_append, cutLast?, cutLast?_eq_none.2 hb, if_pos rfl]
    | cons d a ih => rw [List.cons_append, cutLast?, ih]

/-- A word with marks around it that stands across a mark stands on one side of it. -/
theorem isInfix_of_append_cons {c : Char} {w s t : List Char} (hw : c ∉ w)
    (h : c :: (w ++ [c]) <:+: s ++ c :: t) :
    c :: (w ++ [c]) <:+: s ++ [c] ∨ c :: (w ++ [c]) <:+: c :: t := by
  obtain ⟨p, q, h⟩ := h
  have hsplit : p ++ c :: (w ++ c :: q) = s ++ c :: t := by simpa using h
  rcases List.append_eq_append_iff.1 hsplit with ⟨r, rfl, hr⟩ | ⟨r, rfl, hr⟩
  · cases r with
    | nil => exact Or.inr ⟨[], q, by simpa using hr⟩
    | cons d r =>
      obtain ⟨rfl, hrest⟩ := List.cons.inj hr
      rcases List.append_eq_append_iff.1 hrest with ⟨u, rfl, hu⟩ | ⟨u, rfl, hu⟩
      · cases u with
        | nil => exact Or.inl ⟨p, [], by simp⟩
        | cons e u =>
          obtain ⟨rfl, -⟩ := List.cons.inj hu
          exact Or.inl ⟨p, u ++ [c], by simp⟩
      · cases u with
        | nil => exact Or.inl ⟨p, [], by simp⟩
        | cons e u =>
          obtain ⟨rfl, -⟩ := List.cons.inj hu
          exact absurd (List.mem_append_right r List.mem_cons_self) hw
  · exact Or.inr ⟨r, q, by rw [hr]; simp⟩

theorem isPrefix_trimEndWhile (p : Char → Bool) (s : List Char) : trimEndWhile p s <+: s := by
  induction s with
  | nil => exact List.prefix_rfl
  | cons c r ih =>
    rw [trimEndWhile]
    split
    · split
      · exact List.nil_prefix
      · exact (List.prefix_cons_inj c).2 List.nil_prefix
    · exact (List.prefix_cons_inj c).2 ih

theorem isInfix_trimWhile (p : Char → Bool) (s : List Char) : trimWhile p s <:+: s :=
  (isPrefix_trimEndWhile p _).isInfix.trans (List.dropWhile_suffix p).isInfix

theorem mem_of_mem_replaceFrom {old new s : List Char} {skip : ℕ} {c : Char}
    (h : c ∈ replaceFrom old new skip s) : c ∈ new ∨ c ∈ s := by
  fun_induction replaceFrom old new skip s with
  | case1 => cases h
  | case2 skip d r ih => exact (ih h).imp_right (List.mem_cons_of_mem _)
  | case3 d r hprefix ih =>
    rcases List.mem_append.1 h with h | h
    · exact Or.inl h
    · exact (ih h).imp_right (List.mem_cons_of_mem _)
  | case4 d r hprefix ih =>
    rcases List.mem_cons.1 h with rfl | h
    · exact Or.inr List.mem_cons_self
    · exact (ih h).imp_right (List.mem_cons_of_mem _)

/-- A text is left as it is where the character to be replaced is not in it. -/
theorem replace_of_not_mem {c : Char} {s : List Char} (h : c ∉ s) (new : List Char) :
    replace [c] new s = s := by
  unfold replace
  induction s with
  | nil => rfl
  | cons d r ih =>
    rw [List.mem_cons, not_or] at h
    have hstart : [c].isPrefixOf (d :: r) = false := by simpa [List.isPrefixOf] using h.1
    rw [replaceFrom, hstart, if_neg Bool.false_ne_true, ih h.2]

/-- A single character is replaced wherever it stands. -/
theorem replace_singleton (c : Char) (new s : List Char) :
    replace [c] new s = s.flatMap fun d => if d = c then new else [d] := by
  unfold replace
  induction s with
  | nil => rfl
  | cons d r ih =>
    rw [replaceFrom, List.flatMap_cons, ← ih]
    by_cases h : d = c
    · subst h
      simp [List.isPrefixOf]
    · have hstart : [c].isPrefixOf (d :: r) = false := by simpa [List.isPrefixOf] using Ne.symm h
      rw [hstart, if_neg Bool.false_ne_true, if_neg h, List.singleton_append]

theorem notMem_replace {c : Char} {new : List Char} (hnew : c ∉ new) (s : List Char) :
    c ∉ replace [c] new s := by
  rw [replace_singleton, List.mem_flatMap]
  rintro ⟨d, -, hd⟩
  split_ifs at hd with h
  · exact hnew hd
  · exact h (List.mem_singleton.1 hd).symm

theorem splitOn_append (sep : Char) (s t : List Char) :
    splitOn sep (s ++ sep :: t) = splitOn sep s ++ splitOn sep t := by
  unfold splitOn
  induction s with
  | nil => simp [splitBy]
  | cons c r ih =>
    rw [List.cons_append, splitBy, splitBy, ih]
    split
    · rfl
    · cases h : splitBy (· == sep) r with
      | nil => exact absurd h (splitBy_ne_nil _ _)
      | cons w ws => rfl

theorem splitOn_cons_of_ne {sep c : Char} (h : c ≠ sep) (s : List Char) :
    splitOn sep (c :: s) = (splitOn sep s).modifyHead (c :: ·) := by
  have hb : (c == sep) = false := by simpa using h
  rw [splitOn, splitBy, hb, if_neg Bool.false_ne_true, splitOn]
  cases hs : splitBy (· == sep) s with
  | nil => exact absurd hs (splitBy_ne_nil _ _)
  | cons w ws => rfl

/-- A text without separators stands in front of the first piece. -/
theorem splitOn_append_of_not_mem {sep : Char} {s : List Char} (h : sep ∉ s) (t : List Char) :
    splitOn sep (s ++ t) = (splitOn sep t).modifyHead (s ++ ·) := by
  induction s with
  | nil => exact (congrFun List.modifyHead_id _).symm
  | cons c r ih =>
    rw [List.mem_cons, not_or] at h
    rw [List.cons_append, splitOn_cons_of_ne (Ne.symm h.1), ih h.2, List.modifyHead_modifyHead]
    rfl

theorem splitOn_of_not_mem {sep : Char} {s : List Char} (h : sep ∉ s) : splitOn sep s = [s] := by
  simpa [splitOn, splitBy] using splitOn_append_of_not_mem h []

theorem notMem_of_mem_splitOn {sep : Char} {s w : List Char} (h : w ∈ splitOn sep s) : sep ∉ w := by
  induction s generalizing w with
  | nil => simp_all [splitOn, splitBy]
  | cons c r ih =>
    by_cases hc : c = sep
    · rw [splitOn, splitBy, if_pos (by simpa using hc), List.mem_cons] at h
      rcases h with rfl | h
      · exact List.not_mem_nil
      · exact ih h
    · rw [splitOn_cons_of_ne hc] at h
      cases hs : splitOn sep r with
      | nil => exact absurd hs (splitBy_ne_nil _ _)
      | cons v vs =>
        rw [hs, List.modifyHead_cons, List.mem_cons] at h
        rcases h with rfl | h
        · rw [List.mem_cons, not_or]
          exact ⟨Ne.symm hc, ih (hs ▸ List.mem_cons_self)⟩
        · exact ih (hs ▸ List.mem_cons_of_mem _ h)

theorem join_cons_of_ne_nil (sep w : List Char) {ws : List (List Char)} (h : ws ≠ []) :
    join sep (w :: ws) = w ++ sep ++ join sep ws := by
  rw [join]
  exact h

theorem isInfix_join {sep w : List Char} {ws : List (List Char)} (h : w ∈ ws) :
    w <:+: join sep ws := by
  induction ws with
  | nil => cases h
  | cons v vs ih =>
    cases vs with
    | nil => rw [List.mem_singleton.1 h, join]
    | cons u us =>
      rw [join_cons_of_ne_nil _ _ (List.cons_ne_nil _ _)]
      rcases List.mem_cons.1 h with rfl | h
      · rw [List.append_assoc]
        exact (List.prefix_append _ _).isInfix
      · exact (ih h).trans (List.suffix_append _ _).isInfix

/-- A mark may be cut in two, of which one stands in front of each piece but the first. -/
theorem join_append (sep t w : List Char) (ws : List (List Char)) :
    join (sep ++ t) (w :: ws) = join sep (w :: ws.map (t ++ ·)) := by
  induction ws generalizing w with
  | nil => rfl
  | cons v ws ih =>
    rw [join_cons_of_ne_nil _ _ (List.cons_ne_nil v ws), List.map_cons,
      join_cons_of_ne_nil _ _ (List.cons_ne_nil _ _), ih]
    cases ws with
    | nil => simp [join]
    | cons u ws =>
      rw [List.map_cons, join_cons_of_ne_nil _ _ (List.cons_ne_nil _ _),
        join_cons_of_ne_nil _ _ (List.cons_ne_nil _ _)]
      simp

theorem isInfix_of_mem_splitOn {sep : Char} {s w : List Char} (h : w ∈ splitOn sep s) :
    w <:+: s :=
  join_splitOn sep s ▸ isInfix_join h

end Chars

namespace Text

theorem contains_iff {p s : String} : contains p s = true ↔ p.toList <:+: s.toList :=
  Chars.contains_iff

theorem isInfix_trimWhile (p : Char → Bool) (s : String) :
    (trimWhile p s).toList <:+: s.toList := by
  rw [trimWhile, onChars, String.toList_ofList]
  exact Chars.isInfix_trimWhile p s.toList

theorem isPrefix_append (s t : String) : s.toList <+: (s ++ t).toList := by
  rw [String.toList_append]
  exact List.prefix_append _ _

theorem isSuffix_append (s t : String) : t.toList <:+ (s ++ t).toList := by
  rw [String.toList_append]
  exact List.suffix_append _ _

theorem startsWith_iff {p s : String} : startsWith p s = true ↔ p.toList <+: s.toList :=
  List.isPrefixOf_iff_prefix

theorem dropPrefix?_append (p s : String) : dropPrefix? p (p ++ s) = some s := by
  rw [dropPrefix?, String.toList_append, Chars.dropPrefix?_append, Option.map_some,
    String.ofList_toList]

/-- A text that starts otherwise has nothing behind the start. -/
theorem dropPrefix?_eq_none {p s : String} (h : ¬p.toList <+: s.toList) :
    dropPrefix? p s = none := by
  rw [dropPrefix?, Chars.dropPrefix?_eq_none h, Option.map_none]

theorem dropPrefix?_eq_some_iff {p s t : String} : dropPrefix? p s = some t ↔ s = p ++ t := by
  simp only [dropPrefix?, Option.map_eq_some_iff, Chars.dropPrefix?_eq_some_iff]
  constructor
  · rintro ⟨r, h, rfl⟩
    exact String.toList_inj.1 (by simp [h])
  · rintro rfl
    exact ⟨t.toList, by simp, String.ofList_toList⟩

theorem dropSuffix?_eq_some_iff {p s t : String} : dropSuffix? p s = some t ↔ s = t ++ p := by
  simp only [dropSuffix?, Option.map_eq_some_iff, Chars.dropSuffix?_eq_some_iff]
  constructor
  · rintro ⟨r, h, rfl⟩
    exact String.toList_inj.1 (by simp [h])
  · rintro rfl
    exact ⟨t.toList, by simp, String.ofList_toList⟩

/-- A text with some character does not occur where that character does not. -/
theorem contains_eq_false {p s : String} {c : Char} (hp : c ∈ p.toList) (hs : c ∉ s.toList) :
    contains p s = false :=
  Bool.eq_false_iff.2 fun h => hs ((contains_iff.1 h).subset hp)

theorem toList_repeated (n : ℕ) (s : String) :
    (repeated n s).toList = (List.replicate n s.toList).flatten := by
  simp [repeated, String.toList_join, List.flatMap]

theorem toList_intercalate (mark : String) (ss : List String) :
    (mark.intercalate ss).toList = Chars.join mark.toList (ss.map String.toList) := by
  induction ss with
  | nil => rfl
  | cons s ss ih =>
    cases ss with
    | nil => simp [Chars.join]
    | cons t ss =>
      rw [String.intercalate_cons_cons, String.toList_append, String.toList_append, ih]
      exact (Chars.join_cons_of_ne_nil _ _ (List.cons_ne_nil _ _)).symm

section Split

variable {sep : Char} {mark : String}

theorem splitOn_append (hmark : mark.toList = [sep]) (s t : String) :
    splitOn sep (s ++ mark ++ t) = splitOn sep s ++ splitOn sep t := by
  have h : (s ++ mark ++ t).toList = s.toList ++ sep :: t.toList := by simp [hmark]
  rw [splitOn, h, Chars.splitOn_append, List.map_append]
  rfl

theorem splitOn_of_char_notMem {s : String} (h : sep ∉ s.toList) : splitOn sep s = [s] := by
  rw [splitOn, Chars.splitOn_of_not_mem h, List.map_singleton, String.ofList_toList]

theorem notMem_of_mem_splitOn {s w : String} (h : w ∈ splitOn sep s) : sep ∉ w.toList := by
  obtain ⟨cs, hcs, rfl⟩ := List.mem_map.1 h
  rw [String.toList_ofList]
  exact Chars.notMem_of_mem_splitOn hcs

theorem isInfix_of_mem_splitOn {s w : String} (h : w ∈ splitOn sep s) :
    w.toList <:+: s.toList := by
  obtain ⟨cs, hcs, rfl⟩ := List.mem_map.1 h
  rw [String.toList_ofList]
  exact Chars.isInfix_of_mem_splitOn hcs

theorem cut?_eq_some_iff (hmark : mark.toList = [sep]) {s a b : String} :
    cut? mark s = some (a, b) ↔ s = a ++ mark ++ b ∧ sep ∉ a.toList := by
  simp only [cut?, hmark, Option.map_eq_some_iff, Prod.exists, Prod.mk.injEq,
    Chars.cut?_singleton_eq_some_iff]
  constructor
  · rintro ⟨x, y, ⟨hs, hx⟩, rfl, rfl⟩
    exact ⟨String.toList_inj.1 (by simp [hs, hmark]), by simpa using hx⟩
  · rintro ⟨rfl, ha⟩
    exact ⟨a.toList, b.toList, ⟨by simp [hmark], ha⟩, by simp, by simp⟩

theorem cut?_eq_none (hmark : mark.toList = [sep]) {s : String} :
    cut? mark s = none ↔ sep ∉ s.toList := by
  rw [cut?, hmark, Option.map_eq_none_iff, Chars.cut?_singleton_eq_none]

theorem cutLast?_eq_none {s : String} : cutLast? sep s = none ↔ sep ∉ s.toList := by
  rw [cutLast?, Option.map_eq_none_iff, Chars.cutLast?_eq_none]

theorem cutLast?_eq_some_iff (hmark : mark.toList = [sep]) {s a b : String} :
    cutLast? sep s = some (a, b) ↔ s = a ++ mark ++ b ∧ sep ∉ b.toList := by
  simp only [cutLast?, Option.map_eq_some_iff, Prod.exists, Prod.mk.injEq,
    Chars.cutLast?_eq_some_iff]
  constructor
  · rintro ⟨x, y, ⟨hs, hy⟩, rfl, rfl⟩
    exact ⟨String.toList_inj.1 (by simp [hs, hmark]), by simpa using hy⟩
  · rintro ⟨rfl, hb⟩
    exact ⟨a.toList, b.toList, ⟨by simp [hmark], hb⟩, by simp, by simp⟩

/-- What is put together with a mark between is cut there, and where the mark stands in its parts.
-/
theorem splitOn_intercalate (hmark : mark.toList = [sep]) {ss : List String} (hne : ss ≠ []) :
    splitOn sep (mark.intercalate ss) = ss.flatMap (splitOn sep) := by
  induction ss with
  | nil => exact absurd rfl hne
  | cons s ss ih =>
    cases ss with
    | nil => rw [String.intercalate_singleton, List.flatMap_singleton]
    | cons t ss =>
      rw [String.intercalate_cons_cons, splitOn_append hmark, ih (List.cons_ne_nil _ _),
        List.flatMap_cons, List.flatMap_cons, List.flatMap_cons]

/-- Pieces in which the mark does not stand are what is cut out again. -/
theorem splitOn_intercalate_of_notMem (hmark : mark.toList = [sep]) {ss : List String}
    (hne : ss ≠ []) (h : ∀ s ∈ ss, sep ∉ s.toList) : splitOn sep (mark.intercalate ss) = ss := by
  rw [splitOn_intercalate hmark hne, List.flatMap_congr fun s hs => splitOn_of_char_notMem (h s hs)]
  exact List.flatMap_singleton' ss

theorem intercalate_splitOn (hmark : mark.toList = [sep]) (s : String) :
    mark.intercalate (splitOn sep s) = s := by
  have htoList : (splitOn sep s).map String.toList = Chars.splitOn sep s.toList := by
    simp [splitOn, Function.comp_def]
  rw [← String.toList_inj, toList_intercalate, htoList, hmark, Chars.join_splitOn]

end Split

end Text

/-! ## Lines -/

/-- A text without the ends of lines. -/
structure OneLine (s : String) : Prop where
  noFeed : '\n' ∉ s.toList
  noReturn : '\r' ∉ s.toList

instance (s : String) : Decidable (OneLine s) :=
  decidable_of_iff ('\n' ∉ s.toList ∧ '\r' ∉ s.toList) ⟨fun h => ⟨h.1, h.2⟩, fun h => ⟨h.1, h.2⟩⟩

@[simp] theorem oneLine_append {s t : String} : OneLine (s ++ t) ↔ OneLine s ∧ OneLine t := by
  constructor
  · rintro ⟨hn, hr⟩
    rw [String.toList_append, List.mem_append, not_or] at hn hr
    exact ⟨⟨hn.1, hr.1⟩, ⟨hn.2, hr.2⟩⟩
  · rintro ⟨hs, ht⟩
    refine ⟨?_, ?_⟩ <;> rw [String.toList_append, List.mem_append, not_or]
    · exact ⟨hs.noFeed, ht.noFeed⟩
    · exact ⟨hs.noReturn, ht.noReturn⟩

namespace Chars

/-- A character that ends no line stands in front of the first line that follows. -/
theorem lines_cons {c : Char} {r : List Char} (hc : c ≠ '\n')
    (hr : c = '\r' → r.head? ≠ some '\n') :
    lines (c :: r) = match lines r with
      | [] => [[c]]
      | l :: ls => (c :: l) :: ls := by
  rw [lines.eq_def]
  split
  · next h => cases h
  · next h => exact absurd (List.cons.inj h).1 hc
  · next h =>
    obtain ⟨rfl, rfl⟩ := List.cons.inj h
    exact absurd rfl (hr rfl)
  · next h =>
    obtain ⟨rfl, rfl⟩ := List.cons.inj h
    rfl

theorem lines_ne_nil {s : List Char} (h : s ≠ []) : lines s ≠ [] := by
  fun_cases lines s <;> simp_all

/-- A line feed ends a line. -/
theorem lines_append (s t : List Char) :
    lines (s ++ '\n' :: t) = lines (s ++ ['\n']) ++ lines t := by
  induction s using lines.induct with
  | case1 => simp [lines]
  | case2 r ih => simp [lines, ih]
  | case3 r ih => simp [lines, ih]
  | case4 c r hc hr h ih =>
    obtain rfl : r = [] := by_contra fun hne => lines_ne_nil hne h
    by_cases hreturn : c = '\r'
    · subst hreturn
      simp [lines]
    · rw [List.cons_append, List.cons_append, lines_cons hc (fun h => absurd h hreturn),
        lines_cons hc (fun h => absurd h hreturn)]
      simp [lines]
  | case5 c r hc hr l ls h ih =>
    cases r with
    | nil => simp [lines] at h
    | cons d r =>
      have hd : ∀ u : List Char, c = '\r' → (d :: r ++ u).head? ≠ some '\n' := fun u hreturn hd =>
        hr r hreturn (congrArg (· :: r) (Option.some.inj hd))
      obtain ⟨l', ls', h'⟩ := List.exists_cons_of_ne_nil
        (lines_ne_nil (List.append_ne_nil_of_left_ne_nil (List.cons_ne_nil d r) ['\n']))
      change lines (c :: (d :: r ++ '\n' :: t)) = lines (c :: (d :: r ++ ['\n'])) ++ lines t
      rw [lines_cons hc (hd _), lines_cons hc (hd _), ih, h']
      rfl

theorem feed_notMem_of_mem_lines {s l : List Char} (h : l ∈ lines s) : '\n' ∉ l := by
  induction s using lines.induct generalizing l with
  | case1 => simp [lines] at h
  | case2 r ih | case3 r ih =>
    rw [lines, List.mem_cons] at h
    rcases h with rfl | h
    · exact List.not_mem_nil
    · exact ih h
  | case4 c r hc hr hnil ih =>
    rw [lines_cons hc fun hreturn => by simp_all [List.head?_eq_some_iff], hnil] at h
    simpa [List.mem_singleton.1 h] using Ne.symm hc
  | case5 c r hc hr l' ls hl ih =>
    rw [lines_cons hc fun hreturn => by simp_all [List.head?_eq_some_iff], hl] at h
    rcases List.mem_cons.1 h with rfl | h
    · exact fun hmem => (List.mem_cons.1 hmem).elim (Ne.symm hc) (ih (hl ▸ List.mem_cons_self))
    · exact ih (hl ▸ List.mem_cons_of_mem _ h)

/-- What has no line feeds is put in front of the first line. -/
theorem lines_append_of_feed_notMem {s t l : List Char} {ls : List (List Char)} (hn : '\n' ∉ s)
    (hr : s.getLast? = some '\r' → t.head? ≠ some '\n') (h : lines t = l :: ls) :
    lines (s ++ t) = (s ++ l) :: ls := by
  induction s with
  | nil => exact h
  | cons c s ih =>
    obtain ⟨hcn, hsn⟩ := not_or.1 (mt List.mem_cons.2 hn)
    have hnext : c = '\r' → (s ++ t).head? ≠ some '\n' := by
      rintro rfl
      cases s with
      | nil => exact hr rfl
      | cons d s => exact fun hd => hsn (Option.some.inj hd ▸ List.mem_cons_self)
    have hlast : s.getLast? = some '\r' → t.head? ≠ some '\n' := fun hs =>
      hr (by simp [List.getLast?_cons, hs])
    rw [List.cons_append, lines_cons (Ne.symm hcn) hnext, ih hsn hlast]
    rfl

end Chars

namespace Text

theorem toList_unlines (ls : List String) :
    (unlines ls).toList = ls.flatMap fun l => l.toList ++ ['\n'] := by
  simp [unlines, String.toList_join, List.flatMap_map]

/-- The lines of texts put one after another are those of each. -/
theorem lines_unlines (ls : List String) :
    lines (unlines ls) = ls.flatMap fun l => lines (l ++ "\n") := by
  simp only [lines, toList_unlines]
  induction ls with
  | nil => rfl
  | cons l ls ih =>
    rw [List.flatMap_cons, List.append_assoc, List.singleton_append, Chars.lines_append,
      List.map_append, ih, List.flatMap_cons, String.toList_append]
    rfl

/-- A text in front of another one stands in front of its first line. -/
theorem lines_append_of_eq_cons {s t l : String} {ls : List String} (hs : OneLine s)
    (h : lines t = l :: ls) : lines (s ++ t) = (s ++ l) :: ls := by
  rw [lines, List.map_eq_cons_iff] at h
  obtain ⟨cs, css, hcs, rfl, rfl⟩ := h
  have hr : s.toList.getLast? ≠ some '\r' := fun h => hs.noReturn (List.mem_of_getLast? h)
  rw [lines, String.toList_append,
    Chars.lines_append_of_feed_notMem hs.noFeed (fun h => absurd h hr) hcs]
  simp

theorem lines_newline (s : String) : ∃ l ls, lines (s ++ "\n") = l :: ls := by
  refine List.exists_cons_of_ne_nil fun h => ?_
  rw [lines, List.map_eq_nil_iff] at h
  exact Chars.lines_ne_nil (by simp) h

theorem lines_of_oneLine {s : String} (hs : OneLine s) : lines (s ++ "\n") = [s] := by
  have h : lines "\n" = [""] := by decide +kernel
  rw [lines_append_of_eq_cons hs h, String.append_empty]

theorem flatMap_lines_of_oneLine {ls : List String} (h : ∀ l ∈ ls, OneLine l) :
    ls.flatMap (fun l => lines (l ++ "\n")) = ls := by
  rw [List.flatMap_congr fun l hl => lines_of_oneLine (h l hl)]
  exact List.flatMap_singleton' ls

/-- Texts without line feeds, each with one behind it, are the pieces between the line feeds. -/
theorem splitOn_unlines {ls : List String} (h : ∀ l ∈ ls, '\n' ∉ l.toList) :
    splitOn '\n' (unlines ls) = ls ++ [""] := by
  rw [splitOn, toList_unlines]
  induction ls with
  | nil => rfl
  | cons l ls ih =>
    obtain ⟨hl, hls⟩ := List.forall_mem_cons.1 h
    rw [List.flatMap_cons, List.append_assoc, List.singleton_append, Chars.splitOn_append,
      Chars.splitOn_of_not_mem hl, List.map_append, ih hls, List.map_singleton,
      String.ofList_toList]
    rfl

theorem unlines_inj {ls ms : List String} (hl : ∀ l ∈ ls, '\n' ∉ l.toList)
    (hm : ∀ l ∈ ms, '\n' ∉ l.toList) : unlines ls = unlines ms ↔ ls = ms := by
  refine ⟨fun h => ?_, congrArg unlines⟩
  have hsplit := congrArg (splitOn '\n') h
  rw [splitOn_unlines hl, splitOn_unlines hm] at hsplit
  exact List.append_cancel_right hsplit

theorem feed_notMem_of_mem_lines {s l : String} (h : l ∈ lines s) : '\n' ∉ l.toList := by
  obtain ⟨cs, hcs, rfl⟩ := List.mem_map.1 h
  rw [String.toList_ofList]
  exact Chars.feed_notMem_of_mem_lines hcs

/-! ## Texts kept on one line -/

theorem toList_singleLine (s : String) : (singleLine s).toList = Chars.singleLine s.toList :=
  String.toList_ofList

theorem oneLine_of_toList_eq_flatMap {s : String} {cs : List Char} {f : Char → List Char}
    (hs : s.toList = cs.flatMap f) (hf : ∀ c, '\n' ∉ f c ∧ '\r' ∉ f c) : OneLine s := by
  refine ⟨?_, ?_⟩ <;> rw [hs, List.mem_flatMap] <;> rintro ⟨c, -, hc⟩
  · exact (hf c).1 hc
  · exact (hf c).2 hc

theorem oneLine_singleLine (s : String) : OneLine (singleLine s) := by
  refine oneLine_of_toList_eq_flatMap (toList_singleLine s) fun c => ?_
  split_ifs with hn hr
  · decide
  · decide
  · exact ⟨mt List.mem_singleton.1 (Ne.symm hn), mt List.mem_singleton.1 (Ne.symm hr)⟩

theorem oneLine_escape (s : String) : OneLine (escape s) := by
  refine oneLine_of_toList_eq_flatMap String.toList_ofList fun c => ?_
  fun_cases Chars.escapeChar c with
  | case5 _ _ _ hn hr =>
    exact ⟨mt List.mem_singleton.1 (Ne.symm hn), mt List.mem_singleton.1 (Ne.symm hr)⟩
  | _ => decide

theorem char_notMem_intercalate {c : Char} {sep : String} {ss : List String}
    (hsep : c ∉ sep.toList) (h : ∀ s ∈ ss, c ∉ s.toList) : c ∉ (sep.intercalate ss).toList := by
  induction ss with
  | nil => exact List.not_mem_nil
  | cons s ss ih =>
    obtain ⟨hs, hss⟩ := List.forall_mem_cons.1 h
    cases ss with
    | nil => rwa [String.intercalate_singleton]
    | cons t ss =>
      rw [String.intercalate_cons_cons, String.toList_append, String.toList_append,
        List.mem_append, List.mem_append, not_or, not_or]
      exact ⟨⟨hs, hsep⟩, ih hss⟩

theorem oneLine_intercalate {sep : String} {ss : List String} (hsep : OneLine sep)
    (h : ∀ s ∈ ss, OneLine s) : OneLine (sep.intercalate ss) :=
  ⟨char_notMem_intercalate hsep.1 fun s hs => (h s hs).1,
    char_notMem_intercalate hsep.2 fun s hs => (h s hs).2⟩

theorem char_notMem_replace {old new s : String} {c : Char} (hnew : c ∉ new.toList)
    (hs : c ∉ s.toList) : c ∉ (replace old new s).toList := by
  rw [replace, onChars, String.toList_ofList]
  exact fun h => (Chars.mem_of_mem_replaceFrom h).elim hnew hs

theorem replace_of_char_notMem {c : Char} {old s : String} (hold : old.toList = [c])
    (h : c ∉ s.toList) (new : String) : replace old new s = s := by
  rw [replace, onChars, hold, Chars.replace_of_not_mem h, String.ofList_toList]

theorem singleLine_of_oneLine {s : String} (h : OneLine s) : singleLine s = s := by
  rw [← String.toList_inj, toList_singleLine, Chars.singleLine]
  refine (List.flatMap_congr fun c hc => ?_).trans (List.flatMap_singleton' _)
  rw [if_neg (ne_of_mem_of_not_mem hc h.noFeed), if_neg (ne_of_mem_of_not_mem hc h.noReturn)]

/-- Line ends leave backslashes. -/
theorem oneLine_of_backslash_notMem {s : String} (h : '\\' ∉ (singleLine s).toList) :
    OneLine s := by
  rw [toList_singleLine, Chars.singleLine, List.mem_flatMap] at h
  exact ⟨fun hn => h ⟨_, hn, by simp⟩, fun hr => h ⟨_, hr, by simp⟩⟩

/-- A text without backslashes and line ends is the single line of itself only. -/
theorem singleLine_eq_iff {s t : String} (ht : OneLine t) (hb : '\\' ∉ t.toList) :
    singleLine s = t ↔ s = t := by
  constructor
  · rintro rfl
    exact (singleLine_of_oneLine (oneLine_of_backslash_notMem hb)).symm
  · rintro rfl
    exact singleLine_of_oneLine ht

end Text

end Atlas
