import Atlas.Chars.Nested
import Atlas.Laravel.Php
import Atlas.Proofs.Words
import Atlas.Sql.Arguments

/-!
# Balanced texts and argument lists

A text in which brackets and quotes are balanced (`Balanced`) leaves a cut at commas where it is: no
comma inside it ends a piece, and behind it no bracket or quote is open
(`splitTopLevelFrom_append`). The same holds if closing brackets stand between balanced texts
(`Separable`), since they close nothing (`splitTopLevel_append`). So texts whose commas all stand
inside brackets or quotes are cut as they were put together (`splitTopLevel_join`), and no others are
left whole in front of a comma (`separable_iff`).

The arguments of an SQL function are cut where single quotes count, those of a PHP call where double
quotes count as well. Nothing is lost by a cut, and separable texts come out of it as they were put
together; in PHP they are trimmed, and a list may end with a comma (`arguments_cut`).
-/

set_option linter.unusedSectionVars false

namespace Atlas

namespace Chars

variable {quotes : List Char} {s t : List Char} {inside : Bool}

/-! ## Balanced texts -/

/-- The brackets and the comma, which are no quotes. -/
def marks : List Char := ['(', '[', ')', ']', ',']

/-- Brackets and quotes are balanced in the text. What stands in quotes counts for nothing else, and
unless the text stands inside brackets, every comma stands in brackets or quotes of its own. -/
inductive Balanced (quotes : List Char) : Bool → List Char → Prop
  | nil {inside : Bool} : Balanced quotes inside []
  | char {inside : Bool} {c : Char} {s : List Char} (hq : c ∉ quotes) (hc : c ∉ marks)
      (hs : Balanced quotes inside s) : Balanced quotes inside (c :: s)
  | comma {s : List Char} (hs : Balanced quotes true s) : Balanced quotes true (',' :: s)
  | quote {inside : Bool} {q : Char} {body s : List Char} (hq : q ∈ quotes) (hbody : q ∉ body)
      (hs : Balanced quotes inside s) : Balanced quotes inside (q :: (body ++ q :: s))
  | bracket {inside : Bool} {o c : Char} {body s : List Char} (ho : o ∈ ['(', '['])
      (hc : c ∈ [')', ']']) (hbody : Balanced quotes true body) (hs : Balanced quotes inside s) :
      Balanced quotes inside (o :: (body ++ c :: s))

theorem Balanced.append (hs : Balanced quotes inside s) (ht : Balanced quotes inside t) :
    Balanced quotes inside (s ++ t) := by
  induction hs with
  | nil => exact ht
  | char hq hc _ ih => exact .char hq hc (ih ht)
  | comma _ ih => exact .comma (ih ht)
  | quote hq hbody _ ih =>
    rw [List.cons_append, List.append_assoc, List.cons_append]
    exact .quote hq hbody (ih ht)
  | bracket ho hc hbody _ _ ih =>
    rw [List.cons_append, List.append_assoc, List.cons_append]
    exact .bracket ho hc hbody (ih ht)

/-- A text without quotes, brackets and commas is balanced. -/
theorem balanced_of_forall (h : ∀ c ∈ s, c ∉ quotes ∧ c ∉ marks) : Balanced quotes inside s := by
  induction s with
  | nil => exact .nil
  | cons c s ih =>
    obtain ⟨⟨hq, hc⟩, hs⟩ := List.forall_mem_cons.1 h
    exact .char hq hc (ih hs)

theorem balanced_of_all (h : s.all (fun c => c ∉ quotes ∧ c ∉ marks) = true) :
    Balanced quotes inside s :=
  balanced_of_forall fun c hc => of_decide_eq_true (List.all_eq_true.1 h c hc)

/-! ## Cuts of balanced texts -/

theorem consFirst_modifyHead (c : Char) (s : List Char) {ws : List (List Char)} (hws : ws ≠ []) :
    consFirst c (ws.modifyHead (s ++ ·)) = ws.modifyHead (c :: s ++ ·) := by
  obtain ⟨w, ws, rfl⟩ := List.exists_cons_of_ne_nil hws
  rfl

theorem modifyHead_nil_append (ws : List (List Char)) : ws.modifyHead ([] ++ ·) = ws :=
  congrFun List.modifyHead_id ws

/-- A quote goes on to the character that closes it. -/
theorem splitTopLevelFrom_quote {q : Char} {body : List Char} (h : q ∉ body) (depth : ℕ)
    (t : List Char) : splitTopLevelFrom quotes (some q) depth (body ++ q :: t) =
      (splitTopLevelFrom quotes none depth t).modifyHead (body ++ q :: ·) := by
  induction body with
  | nil =>
    rw [List.nil_append, splitTopLevelFrom, if_pos rfl]
    exact (congrArg _ (modifyHead_nil_append _).symm).trans
      (consFirst_modifyHead q [] splitTopLevelFrom_ne_nil)
  | cons c body ih =>
    obtain ⟨hc, hbody⟩ := not_or.1 (mt List.mem_cons.2 h)
    have happend : ∀ ws : List (List Char), ws.modifyHead (body ++ q :: ·) =
        ws.modifyHead ((body ++ [q]) ++ ·) := fun ws => by
      simp
    rw [List.cons_append, splitTopLevelFrom, if_neg (Ne.symm hc), ih hbody, happend,
      consFirst_modifyHead c _ splitTopLevelFrom_ne_nil]
    simp

/-- A balanced text stands in front of the first piece of what follows. Commas of its own count for
nothing inside brackets. -/
theorem splitTopLevelFrom_append (hquotes : ∀ q ∈ quotes, q ∉ marks)
    (hs : Balanced quotes inside s) {depth : ℕ} (hdepth : inside = true → 0 < depth)
    (t : List Char) : splitTopLevelFrom quotes none depth (s ++ t) =
      (splitTopLevelFrom quotes none depth t).modifyHead (s ++ ·) := by
  have hmark : ∀ c ∈ marks, c ∉ quotes := fun c hc hq => hquotes c hq hc
  induction hs generalizing depth t with
  | nil => exact (modifyHead_nil_append _).symm
  | @char inside c s hq hc _ ih =>
    simp only [marks, List.mem_cons, List.not_mem_nil, or_false, not_or] at hc
    rw [List.cons_append, splitTopLevelFrom, if_neg hq, if_neg (by simp [hc]),
      if_neg (by simp [hc]), if_neg (by simp [hc]), ih hdepth,
      consFirst_modifyHead c _ splitTopLevelFrom_ne_nil]
  | @comma s _ ih =>
    rw [List.cons_append, splitTopLevelFrom, if_neg (hmark _ (by decide)), if_neg (by decide),
      if_neg (by decide), if_neg fun h => Nat.ne_of_gt (hdepth rfl) h.2, ih hdepth,
      consFirst_modifyHead _ _ splitTopLevelFrom_ne_nil]
  | @quote inside q body s hq hbody _ ih =>
    rw [List.cons_append, List.append_assoc, List.cons_append, splitTopLevelFrom, if_pos hq,
      splitTopLevelFrom_quote hbody, ih hdepth, List.modifyHead_modifyHead]
    have happend : ((body ++ q :: ·) ∘ (s ++ ·) : List Char → List Char) =
        ((body ++ q :: s) ++ ·) := by
      funext w
      simp
    rw [happend, consFirst_modifyHead q _ splitTopLevelFrom_ne_nil]
  | @bracket inside o c body s ho hc hbody _ ihbody ih =>
    have hopening : o = '(' ∨ o = '[' := by simpa using ho
    have hclosing : c = ')' ∨ c = ']' := by simpa using hc
    have hclose : splitTopLevelFrom quotes none (depth + 1) (c :: (s ++ t)) =
        (splitTopLevelFrom quotes none depth t).modifyHead (c :: s ++ ·) := by
      have hmem : c ∈ marks := by rcases hclosing with rfl | rfl <;> decide
      rw [splitTopLevelFrom, if_neg (hmark c hmem),
        if_neg (by rcases hclosing with rfl | rfl <;> decide), if_pos hclosing,
        Nat.add_sub_cancel, ih hdepth, consFirst_modifyHead c _ splitTopLevelFrom_ne_nil]
    have hmem : o ∈ marks := by rcases hopening with rfl | rfl <;> decide
    rw [List.cons_append, List.append_assoc, List.cons_append, splitTopLevelFrom,
      if_neg (hmark o hmem), if_pos hopening, ihbody (fun _ => Nat.succ_pos _), hclose,
      List.modifyHead_modifyHead]
    have happend : ((body ++ ·) ∘ (c :: s ++ ·) : List Char → List Char) =
        ((body ++ c :: s) ++ ·) := by
      funext w
      simp
    rw [happend, consFirst_modifyHead o _ splitTopLevelFrom_ne_nil]

/-! ## Stray closing brackets -/

/-- Balanced texts, and closing brackets between them that close nothing. -/
inductive Separable (quotes : List Char) : List Char → Prop
  | balanced {s : List Char} (hs : Balanced quotes false s) : Separable quotes s
  | stray {s t : List Char} {c : Char} (hs : Balanced quotes false s) (hc : c ∈ [')', ']'])
      (ht : Separable quotes t) : Separable quotes (s ++ c :: t)

theorem Separable.append_left (hs : Balanced quotes false s) (ht : Separable quotes t) :
    Separable quotes (s ++ t) := by
  cases ht with
  | balanced ht => exact .balanced (hs.append ht)
  | stray hu hc ht =>
    rw [← List.append_assoc]
    exact .stray (hs.append hu) hc ht

/-- Outside of all brackets a closing one changes nothing. -/
theorem splitTopLevel_stray (hquotes : ∀ q ∈ quotes, q ∉ marks) {c : Char} (hc : c ∈ [')', ']'])
    (t : List Char) : splitTopLevel quotes (c :: t) = consFirst c (splitTopLevel quotes t) := by
  have hclosing : c = ')' ∨ c = ']' := by simpa using hc
  have hq : c ∉ quotes := fun hq => hquotes c hq (by rcases hclosing with rfl | rfl <;> decide)
  rw [splitTopLevel, splitTopLevelFrom, if_neg hq,
    if_neg (by rcases hclosing with rfl | rfl <;> decide), if_pos hclosing, splitTopLevel]

/-- A separable text stands in front of the first piece of what follows. -/
theorem splitTopLevel_append (hquotes : ∀ q ∈ quotes, q ∉ marks) (hs : Separable quotes s)
    (t : List Char) :
    splitTopLevel quotes (s ++ t) = (splitTopLevel quotes t).modifyHead (s ++ ·) := by
  induction hs with
  | balanced hs => exact splitTopLevelFrom_append hquotes hs (by simp) t
  | @stray s r c hs hc _ ih =>
    have hcut : splitTopLevel quotes (s ++ c :: (r ++ t)) =
        (splitTopLevel quotes (c :: (r ++ t))).modifyHead (s ++ ·) :=
      splitTopLevelFrom_append hquotes hs (by simp) _
    have hne : splitTopLevel quotes t ≠ [] := splitTopLevelFrom_ne_nil
    rw [List.append_assoc, List.cons_append, hcut, splitTopLevel_stray hquotes hc, ih,
      consFirst_modifyHead _ _ hne, List.modifyHead_modifyHead]
    have happend : ((s ++ ·) ∘ (c :: r ++ ·) : List Char → List Char) = ((s ++ c :: r) ++ ·) := by
      funext w
      simp
    rw [happend]

theorem splitTopLevel_comma (hquotes : ∀ q ∈ quotes, q ∉ marks) (t : List Char) :
    splitTopLevel quotes (',' :: t) = [] :: splitTopLevel quotes t := by
  have hq : ',' ∉ quotes := fun h => hquotes _ h (by decide)
  rw [splitTopLevel, splitTopLevelFrom, if_neg hq, if_neg (by decide), if_neg (by decide),
    if_pos ⟨rfl, rfl⟩, splitTopLevel]

/-- Separable texts are cut at the commas between them. -/
theorem splitTopLevel_join (hquotes : ∀ q ∈ quotes, q ∉ marks) {ws : List (List Char)}
    (hne : ws ≠ []) (hws : ∀ w ∈ ws, Separable quotes w) :
    splitTopLevel quotes (join [','] ws) = ws := by
  induction ws with
  | nil => exact absurd rfl hne
  | cons w ws ih =>
    obtain ⟨hw, hws⟩ := List.forall_mem_cons.1 hws
    cases ws with
    | nil =>
      rw [join, ← List.append_nil w, splitTopLevel_append hquotes hw]
      rfl
    | cons v ws =>
      rw [join_cons_of_ne_nil _ _ (List.cons_ne_nil v ws), List.append_assoc,
        splitTopLevel_append hquotes hw, List.singleton_append, splitTopLevel_comma hquotes,
        ih (List.cons_ne_nil v ws) hws]
      simp

/-! ## Which texts are separable -/

/-- What follows `depth` brackets that are still open, if it closes all of them and its commas stand
inside brackets or quotes. -/
inductive Closes (quotes : List Char) : ℕ → List Char → Prop
  | outside {s : List Char} (hs : Separable quotes s) : Closes quotes 0 s
  | inside {depth : ℕ} {s t : List Char} {c : Char} (hs : Balanced quotes true s)
      (hc : c ∈ [')', ']']) (ht : Closes quotes depth t) : Closes quotes (depth + 1) (s ++ c :: t)

namespace Closes

variable {depth : ℕ} {c : Char}

theorem append_left (hs : ∀ inside, Balanced quotes inside s) (ht : Closes quotes depth t) :
    Closes quotes depth (s ++ t) := by
  cases ht with
  | outside ht => exact .outside (ht.append_left (hs false))
  | inside hu hc ht =>
    rw [← List.append_assoc]
    exact .inside ((hs true).append hu) hc ht

theorem opening (hc : c ∈ ['(', '[']) (hs : Closes quotes (depth + 1) s) :
    Closes quotes depth (c :: s) := by
  cases hs with
  | inside hbody hclose ht =>
    have hone := ht.append_left fun inside => Balanced.bracket hc hclose hbody .nil
    simpa using hone

theorem closing (hc : c ∈ [')', ']']) (hs : Closes quotes (depth - 1) s) :
    Closes quotes depth (c :: s) := by
  cases depth with
  | zero =>
    cases hs with
    | outside hs => exact .outside (.stray .nil hc hs)
  | succ depth => exact .inside .nil hc hs

theorem comma (hdepth : depth ≠ 0) (hs : Closes quotes depth s) :
    Closes quotes depth (',' :: s) := by
  cases hs with
  | outside => exact absurd rfl hdepth
  | inside hbody hc ht => exact .inside (.comma hbody) hc ht

theorem char (hq : c ∉ quotes) (hc : c ∉ marks) (hs : Closes quotes depth s) :
    Closes quotes depth (c :: s) :=
  hs.append_left fun _ => .char hq hc .nil

end Closes

theorem eq_cons_of_consFirst_eq {c d : Char} {ws vs : List (List Char)} {w : List Char}
    (hws : ws ≠ []) (h : consFirst c ws = (d :: w) :: vs) : ws = w :: vs := by
  obtain ⟨u, us, rfl⟩ := List.exists_cons_of_ne_nil hws
  obtain ⟨hhead, rfl⟩ := List.cons.inj h
  rw [(List.cons.inj hhead).2]

/-- A text that is left whole in front of a comma closes what is open, first a quote if there is
one. -/
theorem closes_of_splitTopLevelFrom (s : List Char) :
    (∀ depth, splitTopLevelFrom quotes none depth (s ++ [',']) = [s, []] → Closes quotes depth s) ∧
    ∀ q depth, splitTopLevelFrom quotes (some q) depth (s ++ [',']) = [s, []] →
      ∃ body t, s = body ++ q :: t ∧ q ∉ body ∧ Closes quotes depth t := by
  induction s with
  | nil =>
    refine ⟨fun depth h => ?_, fun q depth h => ?_⟩
    · cases depth with
      | zero => exact .outside (.balanced .nil)
      | succ depth =>
        rw [List.nil_append, splitTopLevelFrom] at h
        split_ifs at h <;> simp_all [splitTopLevelFrom, consFirst]
    · rw [List.nil_append, splitTopLevelFrom] at h
      simp [splitTopLevelFrom, consFirst] at h
  | cons c s ih =>
    obtain ⟨hout, hquote⟩ := ih
    refine ⟨fun depth h => ?_, fun q depth h => ?_⟩
    · rw [List.cons_append, splitTopLevelFrom] at h
      split_ifs at h with hq ho hc hcomma
      · obtain ⟨body, t, rfl, hbody, ht⟩ :=
          hquote c depth (eq_cons_of_consFirst_eq splitTopLevelFrom_ne_nil h)
        have hone := ht.append_left fun inside => Balanced.quote hq hbody .nil
        simpa using hone
      · exact (hout _ (eq_cons_of_consFirst_eq splitTopLevelFrom_ne_nil h)).opening (by simpa)
      · exact (hout _ (eq_cons_of_consFirst_eq splitTopLevelFrom_ne_nil h)).closing (by simpa)
      · exact absurd (List.cons.inj h).1 (List.cons_ne_nil _ _).symm
      · have hs := hout _ (eq_cons_of_consFirst_eq splitTopLevelFrom_ne_nil h)
        by_cases hmark : c = ','
        · subst hmark
          exact hs.comma fun hdepth => hcomma ⟨rfl, hdepth⟩
        · exact hs.char hq (by simp_all [marks])
    · have h := eq_cons_of_consFirst_eq splitTopLevelFrom_ne_nil h
      split_ifs at h with hclose
      · exact ⟨[], s, by rw [hclose, List.nil_append], List.not_mem_nil, hout _ h⟩
      · obtain ⟨body, t, rfl, hbody, ht⟩ := hquote q depth h
        exact ⟨c :: body, t, rfl, by simp [hbody, Ne.symm hclose], ht⟩

theorem separable_of_splitTopLevel (h : splitTopLevel quotes (s ++ [',']) = [s, []]) :
    Separable quotes s := by
  cases (closes_of_splitTopLevelFrom s).1 0 h with
  | outside hs => exact hs

/-- The separable texts are those that are left whole in front of a comma. -/
theorem separable_iff (hquotes : ∀ q ∈ quotes, q ∉ marks) :
    Separable quotes s ↔ splitTopLevel quotes (s ++ [',']) = [s, []] := by
  refine ⟨fun hs => ?_, separable_of_splitTopLevel⟩
  rw [splitTopLevel_append hquotes hs, splitTopLevel_comma hquotes]
  simp [splitTopLevel, splitTopLevelFrom]

end Chars

/-! ## Argument lists -/

theorem toList_intercalate_comma (ws : List String) :
    (",".intercalate ws).toList = Chars.join [','] (ws.map String.toList) :=
  Text.toList_intercalate "," ws

namespace Sql

/-- The pieces of a text with arguments. -/
def declarations (text : String) : List String :=
  (Chars.splitTopLevel ['\''] text.toList).map String.ofList

theorem intercalate_declarations (s : String) : ",".intercalate (declarations s) = s := by
  rw [← String.toList_inj, toList_intercalate_comma]
  simp [declarations, Function.comp_def, Chars.join_splitTopLevel]

theorem declarations_intercalate {ws : List String} (hne : ws ≠ [])
    (hws : ∀ w ∈ ws, Chars.Separable ['\''] w.toList) :
    declarations (",".intercalate ws) = ws := by
  have hquote : ∀ q ∈ ['\''], q ∉ Chars.marks := List.forall_mem_singleton.2 (by decide)
  rw [declarations, toList_intercalate_comma,
    Chars.splitTopLevel_join hquote (mt List.map_eq_nil_iff.1 hne) (List.forall_mem_map.2 hws)]
  simp

end Sql

namespace Laravel.Php

/-- The pieces of a list are trimmed, and a blank one at its end is no argument. -/
theorem arguments_intercalate {ws : List String} {w : String}
    (hws : ∀ v ∈ ws ++ [w], Chars.Separable ['\'', '"'] v.toList) :
    arguments (",".intercalate (ws ++ [w])) =
      ws.map Text.trim ++ if Text.isBlank w then [] else [Text.trim w] := by
  have hquotes : ∀ q ∈ ['\'', '"'], q ∉ Chars.marks :=
    List.forall_mem_cons.2 ⟨by decide, List.forall_mem_singleton.2 (by decide)⟩
  have hcut : Chars.splitTopLevel ['\'', '"'] (",".intercalate (ws ++ [w])).toList =
      ws.map String.toList ++ [w.toList] := by
    rw [toList_intercalate_comma, Chars.splitTopLevel_join hquotes (by simp)
      (List.forall_mem_map.2 hws), List.map_append, List.map_singleton]
  have htrim : ∀ v : String, String.ofList (Chars.trim v.toList) = Text.trim v := fun _ => rfl
  have hblank : Chars.trim w.toList = [] ↔ Text.isBlank w = true := by
    rw [Chars.trim_eq_nil_iff, Text.isBlank, List.all_eq_true]
  rw [arguments, hcut, List.map_append, List.map_singleton]
  by_cases hw : Text.isBlank w = true
  · simp [hblank.2 hw, hw, htrim]
  · simp [mt hblank.1 hw, hw, htrim]

end Laravel.Php

/-- What is cut is the whole text. Separable pieces with commas between them are cut as they were put
together; of PHP arguments they are trimmed, without the last one if that is blank. -/
theorem arguments_cut :
    (∀ s, ",".intercalate (Sql.declarations s) = s) ∧
    (∀ ws ≠ [], (∀ w ∈ ws, Chars.Separable ['\''] w.toList) →
      Sql.declarations (",".intercalate ws) = ws) ∧
    ∀ ws w, (∀ v ∈ ws ++ [w], Chars.Separable ['\'', '"'] v.toList) →
      Laravel.Php.arguments (",".intercalate (ws ++ [w])) =
        ws.map Text.trim ++ if Text.isBlank w then [] else [Text.trim w] :=
  ⟨Sql.intercalate_declarations, fun _ hne hws => Sql.declarations_intercalate hne hws,
    fun _ _ hws => Laravel.Php.arguments_intercalate hws⟩

/-- Arguments with a stray bracket, with brackets and a quote around commas, and with a double quote,
which counts for nothing in SQL. -/
def sqlPieces : List String :=
  ["total numeric(10,2))", " tags text[] DEFAULT '{a,b}'::text[]", " it\""]

/-- Arguments with each kind of quote inside the other. -/
def phpPieces : List String := ["'it, \"is'", " [1, [2, 3]])", " f(\"a, 'b\")"]

theorem arguments_cut_sample :
    (∀ w ∈ sqlPieces, Chars.Separable ['\''] w.toList) ∧
    Sql.declarations "total numeric(10,2)), tags text[] DEFAULT '{a,b}'::text[], it\"" =
      sqlPieces ∧
    (∀ v ∈ phpPieces ++ [" "], Chars.Separable ['\'', '"'] v.toList) ∧
    Laravel.Php.arguments "'it, \"is', [1, [2, 3]]), f(\"a, 'b\"), " =
      ["'it, \"is'", "[1, [2, 3]])", "f(\"a, 'b\")"] := by
  obtain ⟨-, hsql, hphp⟩ := arguments_cut
  have hsqlPieces : ∀ w ∈ sqlPieces, Chars.Separable ['\''] w.toList := fun w hw =>
    Chars.separable_of_splitTopLevel (by revert w; decide)
  have hphpPieces : ∀ v ∈ phpPieces ++ [" "], Chars.Separable ['\'', '"'] v.toList := fun v hv =>
    Chars.separable_of_splitTopLevel (by revert v; decide)
  refine ⟨hsqlPieces, hsql sqlPieces (by decide) hsqlPieces, hphpPieces, ?_⟩
  exact (hphp phpPieces " " hphpPieces).trans (by decide)

end Atlas
