import Atlas.Pattern.Rule
import Mathlib.Computability.Language

/-!
# Texts of patterns

A pattern describes texts (`Pattern.texts`), and so does each of its named groups
(`Pattern.groups`). The search for a pattern goes over its ways one after another, and takes the
first that suits what follows. Whichever way that is, it leads over one of the texts of the pattern,
and what is captured on it is one of the texts of a group (`Pattern.follows_run`). So of every match
of a rule, what a group holds is a text of that group (`RuleSet.exists_mem_groups`).
-/

set_option linter.unusedSectionVars false

namespace Atlas

theorem CharSet.has_char {c d : Char} : (char c).has d = true ↔ d = c := by
  rw [char, has, Bool.and_eq_true, decide_eq_true_eq, decide_eq_true_eq, ← Nat.le_antisymm_iff,
    Char.toNat_inj, eq_comm]

namespace Pattern

-- what the pattern of a written text is can be decided
deriving instance DecidableEq for Chars.Spans, CharSet, Pattern

/-! ## Texts -/

/-- The texts that a pattern describes. Conditions on places are left out, so a pattern with some of
them may match fewer texts. -/
def texts : Pattern → Language Char
  | empty => 1
  | one s => {w | ∃ c, s.has c = true ∧ w = [c]}
  | assert _ => 1
  | seq a b => a.texts * b.texts
  | alt a b => a.texts + b.texts
  | repeated _ min max a =>
    {w | ∃ n, min ≤ n ∧ (∀ m ∈ max, n ≤ Nat.max min m) ∧ w ∈ a.texts ^ n}
  | group _ a => a.texts

/-- The named groups of a pattern, the outer ones first. -/
def groups : Pattern → List (String × Pattern)
  | empty => []
  | one _ => []
  | assert _ => []
  | seq a b => a.groups ++ b.groups
  | alt a b => a.groups ++ b.groups
  | repeated _ _ _ a => a.groups
  | group name a => (name, a) :: a.groups

theorem mem_texts_one {s : CharSet} {w : List Char} :
    w ∈ (one s).texts ↔ ∃ c, s.has c = true ∧ w = [c] :=
  Iff.rfl

theorem mem_texts_char {c : Char} {w : List Char} : w ∈ (one (.char c)).texts ↔ w = [c] := by
  simp only [mem_texts_one, CharSet.has_char, exists_eq_left]

theorem mem_texts_repeated {greedy : Bool} {min : ℕ} {max : Option ℕ} {a : Pattern}
    {w : List Char} : w ∈ (repeated greedy min max a).texts ↔
      ∃ n, min ≤ n ∧ (∀ m ∈ max, n ≤ Nat.max min m) ∧ w ∈ a.texts ^ n :=
  Iff.rfl

/-- The texts of a repetition without an upper bound are put together of texts of what is repeated,
in any number that is not too small. -/
theorem mem_texts_repeated_none {greedy : Bool} {min : ℕ} {a : Pattern} {w : List Char} :
    w ∈ (repeated greedy min none a).texts ↔
      ∃ ws : List (List Char), min ≤ ws.length ∧ w = ws.flatten ∧ ∀ u ∈ ws, u ∈ a.texts := by
  simp only [mem_texts_repeated, Option.mem_def, reduceCtorEq, false_implies, implies_true,
    true_and, Language.mem_pow]
  constructor
  · rintro ⟨n, hn, ws, rfl, rfl, hws⟩
    exact ⟨ws, hn, rfl, hws⟩
  · rintro ⟨ws, hn, rfl, hws⟩
    exact ⟨ws.length, hn, ws, rfl, rfl, hws⟩

/-- The texts of a repeated character class are those of its characters. -/
theorem mem_texts_repeated_one {greedy : Bool} {min : ℕ} {s : CharSet} {w : List Char} :
    w ∈ (repeated greedy min none (one s)).texts ↔
      min ≤ w.length ∧ ∀ c ∈ w, s.has c = true := by
  rw [mem_texts_repeated_none]
  constructor
  · rintro ⟨ws, hmin, rfl, hws⟩
    have hone : ∀ u ∈ ws, u.length = 1 := fun u hu => by
      obtain ⟨c, _, rfl⟩ := mem_texts_one.1 (hws u hu)
      rfl
    have hlength : ws.flatten.length = ws.length := by
      rw [List.length_flatten, List.map_congr_left hone, List.map_const', List.sum_replicate_nat,
        Nat.mul_one]
    refine ⟨hlength ▸ hmin, fun c hc => ?_⟩
    obtain ⟨u, hu, hcu⟩ := List.mem_flatten.1 hc
    obtain ⟨d, hd, rfl⟩ := mem_texts_one.1 (hws u hu)
    rwa [List.mem_singleton.1 hcu]
  · rintro ⟨hmin, hw⟩
    refine ⟨w.map ([·]), by rwa [List.length_map], ?_, List.forall_mem_map.2 fun c hc => ?_⟩
    · rw [← List.flatMap_def, List.flatMap_singleton']
    · exact ⟨c, hw c hc, rfl⟩

/-- The texts of a sequence are put together of texts of its parts. -/
theorem texts_sequence (ps : List Pattern) :
    (sequence ps.reverse).texts = (ps.map texts).prod := by
  induction ps using List.reverseRecOn with
  | nil => rfl
  | append_singleton ps p ih =>
    rw [List.reverse_concat, List.map_append, List.prod_append, List.map_singleton,
      List.prod_singleton, ← ih]
    cases hps : ps.reverse with
    | nil => exact (one_mul p.texts).symm
    | cons q qs => rfl

/-! ## Ways -/

/-- From one place another is reached over a text of the language, and what is captured on the way
are texts of the groups. -/
structure Reaches (L : Language Char) (gs : List (String × Pattern)) (c : Cursor) (caps : Captures)
    (c' : Cursor) (caps' : Captures) : Prop where
  way : ∃ w ∈ L, c.rest = w ++ c'.rest ∧ c'.index = c.index + w.length
  captured : ∀ q ∈ caps', q ∈ caps ∨ ∃ a, (q.1, a) ∈ gs ∧ q.2 ∈ a.texts

namespace Reaches

variable {L M : Language Char} {gs hs : List (String × Pattern)} {c c' c'' : Cursor}
  {caps caps' caps'' : Captures}

theorem refl (gs : List (String × Pattern)) (c : Cursor) (caps : Captures) :
    Reaches 1 gs c caps c caps :=
  ⟨⟨[], Language.nil_mem_one, rfl, rfl⟩, fun _ => Or.inl⟩

theorem trans (h : Reaches L gs c caps c' caps') (h' : Reaches M gs c' caps' c'' caps'') :
    Reaches (L * M) gs c caps c'' caps'' := by
  obtain ⟨u, hu, hrest, hindex⟩ := h.way
  obtain ⟨v, hv, hrest', hindex'⟩ := h'.way
  refine ⟨⟨u ++ v, Language.append_mem_mul hu hv, ?_, ?_⟩, fun q hq => ?_⟩
  · rw [hrest, hrest', List.append_assoc]
  · rw [hindex', hindex, List.length_append, Nat.add_assoc]
  · exact (h'.captured q hq).elim (h.captured q) Or.inr

theorem mono (h : Reaches L gs c caps c' caps') (hL : ∀ w ∈ L, w ∈ M) (hgs : gs ⊆ hs) :
    Reaches M hs c caps c' caps' := by
  obtain ⟨w, hw, hway⟩ := h.way
  exact ⟨⟨w, hL w hw, hway⟩,
    fun q hq => (h.captured q hq).imp_right fun ⟨a, ha, hq⟩ => ⟨a, hgs ha, hq⟩⟩

/-- What was gone over is captured for a group. -/
theorem capture {a : Pattern} (name : String) (h : Reaches a.texts a.groups c caps c' caps') :
    Reaches a.texts ((name, a) :: a.groups) c caps c'
      ((name, c.rest.take (c'.index - c.index)) :: caps') := by
  obtain ⟨w, hw, hrest, hindex⟩ := h.way
  have htake : c.rest.take (c'.index - c.index) = w := by
    rw [hrest, hindex, Nat.add_sub_cancel_left, List.take_left]
  refine ⟨h.way, List.forall_mem_cons.2 ⟨Or.inr ⟨a, List.mem_cons_self, ?_⟩, fun q hq => ?_⟩⟩
  · rwa [htake]
  · exact (h.captured q hq).imp_right fun ⟨b, hb, hq⟩ => ⟨b, List.mem_cons_of_mem _ hb, hq⟩

end Reaches

/-- A step that has a result only if what is left to do has this result at a place that is reached
over a text of the language. -/
def Follows {α : Type} (step : Continuation α → Continuation α) (L : Language Char)
    (gs : List (String × Pattern)) : Prop :=
  ∀ ⦃k : Continuation α⦄ ⦃c : Cursor⦄ ⦃caps : Captures⦄ ⦃r : α⦄, step k c caps = some r →
    ∃ c' caps', Reaches L gs c caps c' caps' ∧ k c' caps' = some r

section Follows

variable {α : Type} {step : Continuation α → Continuation α} {L M : Language Char}
  {gs hs : List (String × Pattern)}

theorem Follows.mono (h : Follows step L gs) (hL : ∀ w ∈ L, w ∈ M) (hgs : gs ⊆ hs) :
    Follows step M hs := fun _ _ _ _ hr =>
  let ⟨c', caps', hreach, hk⟩ := h hr
  ⟨c', caps', hreach.mono hL hgs, hk⟩

theorem Follows.comp {step' : Continuation α → Continuation α} (h : Follows step L gs)
    (h' : Follows step' M gs) : Follows (fun k => step (step' k)) (L * M) gs := by
  intro k c caps r hr
  obtain ⟨c', caps', hreach, hk⟩ := h hr
  obtain ⟨c'', caps'', hreach', hk'⟩ := h' hk
  exact ⟨c'', caps'', hreach.trans hreach', hk'⟩

theorem follows_turns (h : Follows step L gs) (n : ℕ) : Follows (turns step n) (L ^ n) gs := by
  induction n with
  | zero => exact fun k c caps r hr => ⟨c, caps, pow_zero L ▸ Reaches.refl gs c caps, hr⟩
  | succ n ih => exact pow_succ' L n ▸ h.comp ih

/-- A repetition goes on with one more turn or with what comes after it. -/
theorem turn_or_stop_of_upTo {greedy : Bool} {n : ℕ} {k : Continuation α} {c : Cursor}
    {caps : Captures} {r : α} (h : upTo greedy step (n + 1) k c caps = some r) :
    step (fun c' caps' => if c'.index = c.index then k c' caps' else upTo greedy step n k c' caps')
        c caps = some r ∨ k c caps = some r := by
  cases greedy with
  | true =>
    simp only [upTo, if_true] at h
    split at h
    · next hturn => exact Or.inl (hturn.trans h)
    · exact Or.inr h
  | false =>
    simp only [upTo, Bool.false_eq_true, if_false] at h
    split at h
    · next hstop => exact Or.inr (hstop.trans h)
    · exact Or.inl h

/-- A repetition takes some number of turns, at most the given one. -/
theorem exists_reaches_of_upTo (h : Follows step L gs) {greedy : Bool} {n : ℕ} {k : Continuation α}
    {c : Cursor} {caps : Captures} {r : α} (hr : upTo greedy step n k c caps = some r) :
    ∃ m ≤ n, ∃ c' caps', Reaches (L ^ m) gs c caps c' caps' ∧ k c' caps' = some r := by
  have hnone : ∀ c caps, Reaches (L ^ 0) gs c caps c caps := fun c caps =>
    pow_zero L ▸ Reaches.refl gs c caps
  induction n generalizing c caps with
  | zero => exact ⟨0, le_rfl, c, caps, hnone c caps, hr⟩
  | succ n ih =>
    obtain hturn | hstop := turn_or_stop_of_upTo hr
    · obtain ⟨c', caps', hreach, hrest⟩ := h hturn
      split_ifs at hrest
      · exact ⟨1, Nat.le_add_left 1 n, c', caps', (pow_one L).symm ▸ hreach, hrest⟩
      · obtain ⟨m, hm, c'', caps'', hreach', hk⟩ := ih hrest
        exact ⟨m + 1, Nat.succ_le_succ hm, c'', caps'', pow_succ' L m ▸ hreach.trans hreach', hk⟩
    · exact ⟨0, Nat.zero_le _, c, caps, hnone c caps, hstop⟩

end Follows

/-- The search for a pattern goes over the texts of the pattern. -/
theorem follows_run {α : Type} (p : Pattern) :
    Follows (fun k : Continuation α => p.run k) p.texts p.groups := by
  induction p with
  | empty => exact fun k c caps r hr => ⟨c, caps, Reaches.refl _ c caps, hr⟩
  | one s =>
    intro k c caps r hr
    simp only [run] at hr
    split at hr
    · next x rest hrest =>
      split_ifs at hr with hx
      exact ⟨⟨some x, rest, c.index + 1⟩, caps,
        ⟨⟨[x], ⟨x, hx, rfl⟩, hrest, rfl⟩, fun _ => Or.inl⟩, hr⟩
    · cases hr
  | assert a =>
    intro k c caps r hr
    simp only [run] at hr
    split_ifs at hr
    exact ⟨c, caps, Reaches.refl _ c caps, hr⟩
  | seq a b iha ihb =>
    exact (iha.mono (fun _ => id) (List.subset_append_left _ _)).comp
      (ihb.mono (fun _ => id) (List.subset_append_right _ _))
  | alt a b iha ihb =>
    intro k c caps r hr
    simp only [run] at hr
    split at hr
    · next heq =>
      rw [hr] at heq
      exact iha.mono (fun _ => Or.inl) (List.subset_append_left _ _) heq
    · exact ihb.mono (fun _ => Or.inr) (List.subset_append_right _ _) hr
  | repeated greedy min max a ih =>
    intro k c caps r hr
    obtain ⟨c', caps', hreach, hrest⟩ := follows_turns ih min hr
    obtain ⟨m, hm, c'', caps'', hreach', hk⟩ := exists_reaches_of_upTo ih hrest
    refine ⟨c'', caps'', (hreach.trans hreach').mono (fun w hw => ?_) (List.Subset.refl _), hk⟩
    rw [← pow_add] at hw
    refine ⟨min + m, Nat.le_add_right _ _, fun l hl => ?_, hw⟩
    obtain rfl := Option.mem_def.1 hl
    have hle := hm.trans (Nat.min_le_left _ _)
    simp only [Nat.max_def]
    split_ifs <;> omega
  | group name a ih =>
    intro k c caps r hr
    obtain ⟨c', caps', hreach, hk⟩ := ih hr
    exact ⟨c', _, hreach.capture name, hk⟩

/-! ## Matches -/

/-- What a match holds are texts of the groups of a pattern. -/
def Match.Fits (m : Match) (p : Pattern) : Prop :=
  ∀ q ∈ m.captures, ∃ a, (q.1, a) ∈ p.groups ∧ q.2 ∈ a.texts

section Matches

variable {p : Pattern} {m : Match}

theorem fits_of_matchAt? {c : Cursor} (h : p.matchAt? c = some m) : m.Fits p := by
  obtain ⟨stop, caps, hreach, hm⟩ := follows_run p h
  obtain rfl := Option.some.inj hm
  exact fun q hq => (hreach.captured q hq).resolve_left List.not_mem_nil

theorem fits_of_searchFrom {before : Option Char} {index : ℕ} {s : List Char}
    (h : p.searchFrom before index s = some m) : m.Fits p := by
  induction s generalizing before index with
  | nil => exact fits_of_matchAt? h
  | cons x r ih =>
    rw [searchFrom] at h
    split at h
    · next heq => exact fits_of_matchAt? (heq.trans h)
    · exact ih h

theorem fits_of_mem_matchesFrom {fuel : ℕ} {c : Cursor} {last : Option ℕ}
    (h : m ∈ p.matchesFrom fuel c last) : m.Fits p := by
  induction fuel generalizing c last with
  | zero => cases h
  | succ fuel ih =>
    rw [matchesFrom] at h
    split at h
    · cases h
    · next heq =>
      split_ifs at h
      · split at h
        · cases h
        · split at h
          · cases h
          · next heq' =>
            exact (List.mem_cons.1 h).elim (fun h => h ▸ fits_of_searchFrom heq') ih
      · exact (List.mem_cons.1 h).elim (fun h => h ▸ fits_of_searchFrom heq) ih

end Matches

end Pattern

/-! ## Rules -/

section Rules

variable {α : Type} {r : Rule α} {rs : RuleSet α} {text name s : String} {m : Pattern.Match}

theorem Rule.fits_of_mem_matchesIn (hm : m ∈ r.matchesIn text) : m.Fits r.pattern := by
  rw [Rule.matchesIn] at hm
  split_ifs at hm
  · exact Pattern.fits_of_mem_matchesFrom hm
  · exact Pattern.fits_of_searchFrom (Option.mem_toList.1 hm)

/-- The groups of a name in the patterns of some rules. -/
def RuleSet.groups (rs : RuleSet α) (name : String) : List Pattern :=
  rs.flatMap fun r => (r.pattern.groups.filter (·.1 = name)).map Prod.snd

/-- What a group holds in a match of a rule is one of the texts of a group of that name. -/
theorem RuleSet.exists_mem_groups (hr : r ∈ rs) (hm : m ∈ r.matchesIn text)
    (hs : m.group? name = some s) : ∃ a ∈ rs.groups name, s.toList ∈ a.texts := by
  obtain ⟨w, hw, rfl⟩ := Option.map_eq_some_iff.1 hs
  obtain ⟨before, after, hcaps, -⟩ := List.lookup_eq_some_iff.1 hw
  obtain ⟨a, ha, htext⟩ := Rule.fits_of_mem_matchesIn hm (name, w) (by simp [hcaps])
  refine ⟨a, List.mem_flatMap.2 ⟨r, hr, ?_⟩, by rwa [String.toList_ofList]⟩
  exact List.mem_map.2 ⟨(name, a), List.mem_filter.2 ⟨ha, decide_eq_true rfl⟩, rfl⟩

end Rules

end Atlas
