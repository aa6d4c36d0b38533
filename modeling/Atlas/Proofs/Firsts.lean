import Mathlib.Data.List.Induction
import Mathlib.Data.List.Nodup

/-!
# First entries by key

`firsts key l` are the entries of `l` whose key no entry before them has, in their order. A list
that is built entry by entry, leaving out what has the key of an entry already there, holds just
these (`foldl_concatNew`). Entries that are split by their keys are there once each
(`perm_flatMap_filter`).
-/

set_option linter.unusedSectionVars false

namespace Atlas

variable {α κ : Type} [DecidableEq κ] (key : α → κ)

/-- The entries whose key no earlier entry has. -/
def firsts (l : List α) : List α :=
  (l.zipIdx.filter fun e => key e.1 ∉ (l.take e.2).map key).map Prod.fst

/-- The list with one more entry, or as it is where an entry has the key of that. -/
def concatNew (l : List α) (a : α) : List α :=
  if key a ∈ l.map key then l else l ++ [a]

theorem mem_concatNew {l : List κ} {a b : κ} : b ∈ concatNew id l a ↔ b ∈ l ∨ b = a := by
  rw [concatNew, List.map_id]
  split_ifs with ha
  · exact ⟨Or.inl, fun hb => hb.elim id fun hb => hb ▸ ha⟩
  · rw [List.mem_append, List.mem_singleton]

theorem firsts_nil : firsts key [] = [] :=
  rfl

theorem firsts_sublist (l : List α) : (firsts key l).Sublist l := by
  have h := (List.filter_sublist (l := l.zipIdx)
    (p := fun e => decide (key e.1 ∉ (l.take e.2).map key))).map Prod.fst
  rwa [List.zipIdx_map_fst] at h

/-- An entry is kept where no entry before it has its key. -/
theorem mem_firsts_iff {l : List α} {a : α} :
    a ∈ firsts key l ↔ ∃ i, l[i]? = some a ∧ key a ∉ (l.take i).map key := by
  simp [firsts, List.mem_filter, List.mem_zipIdx_iff_getElem?]

theorem firsts_concat (l : List α) (a : α) :
    firsts key (l ++ [a]) = firsts key l ++ if key a ∈ l.map key then [] else [a] := by
  have hold : (l.zipIdx.filter fun e => key e.1 ∉ ((l ++ [a]).take e.2).map key) =
      l.zipIdx.filter fun e => key e.1 ∉ (l.take e.2).map key := by
    refine List.filter_congr fun e he => ?_
    have hi : e.2 < l.length := by simpa using List.snd_lt_of_mem_zipIdx he
    rw [List.take_append_of_le_length (Nat.le_of_lt hi)]
  rw [firsts, List.zipIdx_append, List.filter_append, hold, List.map_append, firsts]
  congr 1
  by_cases h : key a ∈ l.map key <;> simp_all

theorem mem_map_firsts (l : List α) (k : κ) : k ∈ (firsts key l).map key ↔ k ∈ l.map key := by
  induction l using List.reverseRecOn with
  | nil => simp [firsts_nil]
  | append_singleton l a ih =>
    rw [firsts_concat, List.map_append, List.mem_append, ih]
    by_cases h : key a ∈ l.map key
    · rw [if_pos h]
      simp only [List.map_append, List.mem_append, List.map_nil, List.not_mem_nil, or_false,
        List.map_cons, List.mem_singleton]
      exact ⟨Or.inl, fun hk => hk.elim id fun hk => hk ▸ h⟩
    · rw [if_neg h]
      simp

/-- No two of the first entries have one key. -/
theorem nodup_map_firsts (l : List α) : ((firsts key l).map key).Nodup := by
  induction l using List.reverseRecOn with
  | nil => exact List.nodup_nil
  | append_singleton l a ih =>
    rw [firsts_concat, List.map_append]
    by_cases h : key a ∈ l.map key
    · rw [if_pos h, List.map_nil, List.append_nil]
      exact ih
    · rw [if_neg h, List.map_singleton, List.nodup_append]
      refine ⟨ih, List.pairwise_singleton _ _, fun k hk k' hk' => ?_⟩
      rw [List.mem_singleton.1 hk']
      rintro rfl
      exact h ((mem_map_firsts key l _).1 hk)

/-- Of two first entries with one key each is the other. -/
theorem eq_of_mem_firsts {l : List α} {a b : α} (ha : a ∈ firsts key l) (hb : b ∈ firsts key l)
    (h : key a = key b) : a = b :=
  List.inj_on_of_nodup_map (nodup_map_firsts key l) ha hb h

/-- What only one of the first entries gives is found where that one gives it. -/
theorem filter_flatMap_firsts {β : Type} {l : List α} {a : α} (ha : a ∈ firsts key l)
    {f : α → List β} {p : β → Bool}
    (hp : ∀ b ∈ firsts key l, ∀ r ∈ f b, p r = true → key b = key a) :
    ((firsts key l).flatMap f).filter p = (f a).filter p := by
  have hnodup := nodup_map_firsts key l
  obtain ⟨before, after, hsplit⟩ := List.append_of_mem ha
  have hnone : ∀ bs : List α, (∀ b ∈ bs, b ∈ firsts key l ∧ key b ≠ key a) →
      (bs.flatMap f).filter p = [] := fun bs hbs => by
    refine List.filter_eq_nil_iff.2 fun r hr hpr => ?_
    obtain ⟨b, hb, hr⟩ := List.mem_flatMap.1 hr
    exact (hbs b hb).2 (hp b (hbs b hb).1 r hr hpr)
  rw [hsplit] at hnodup hnone ⊢
  rw [List.map_append, List.map_cons, List.nodup_middle, List.nodup_cons, ← List.map_append]
    at hnodup
  have hne : ∀ b ∈ before ++ after, key b ≠ key a := fun b hb he =>
    hnodup.1 (he ▸ List.mem_map_of_mem hb)
  rw [List.flatMap_append, List.flatMap_cons, List.filter_append, List.filter_append,
    hnone before fun b hb => ⟨by simp [hb], hne b (by simp [hb])⟩,
    hnone after fun b hb => ⟨by simp [hb], hne b (by simp [hb])⟩, List.nil_append,
    List.append_nil]

theorem isSome_find?_iff (l : List α) (k : κ) :
    (l.find? (key · = k)).isSome ↔ k ∈ l.map key := by
  simp [List.find?_isSome]

/-- The first entry of a key is the only one that is kept. -/
theorem find?_firsts (l : List α) (k : κ) :
    (firsts key l).find? (key · = k) = l.find? (key · = k) := by
  induction l using List.reverseRecOn with
  | nil => rfl
  | append_singleton l a ih =>
    rw [firsts_concat, List.find?_append, List.find?_append, ih]
    by_cases h : key a ∈ l.map key
    · rw [if_pos h]
      by_cases hk : key a = k
      · have hsome := (isSome_find?_iff key l k).2 (hk ▸ h)
        obtain ⟨c, hc⟩ := Option.isSome_iff_exists.1 hsome
        rw [hc]
        rfl
      · simp [hk]
    · rw [if_neg h]

/-- The first entry of a key is kept, and no other of that key. -/
theorem filter_firsts (l : List α) (k : κ) :
    (firsts key l).filter (key · = k) = (l.find? (key · = k)).toList := by
  induction l using List.reverseRecOn with
  | nil => rfl
  | append_singleton l a ih =>
    rw [firsts_concat, List.filter_append, List.find?_append, ih]
    by_cases hk : key a = k
    · by_cases h : key a ∈ l.map key
      · have hsome := (isSome_find?_iff key l k).2 (hk ▸ h)
        obtain ⟨c, hc⟩ := Option.isSome_iff_exists.1 hsome
        rw [if_pos h, hc]
        rfl
      · have hnone : l.find? (key · = k) = none := by
          rw [← Option.not_isSome_iff_eq_none, isSome_find?_iff, ← hk]
          exact h
        rw [if_neg h, hnone]
        simp [hk]
    · split_ifs <;> simp [hk]

theorem firsts_append (l m : List α) :
    firsts key (l ++ m) = m.foldl (concatNew key) (firsts key l) := by
  induction m generalizing l with
  | nil => simp
  | cons a m ih =>
    have hstep : firsts key (l ++ [a]) = concatNew key (firsts key l) a := by
      rw [firsts_concat, concatNew]
      by_cases h : key a ∈ l.map key
      · rw [if_pos h, if_pos ((mem_map_firsts key l _).2 h), List.append_nil]
      · rw [if_neg h, if_neg fun h' => h ((mem_map_firsts key l _).1 h')]
    rw [List.foldl_cons, ← hstep, ← ih, List.append_assoc, List.singleton_append]

/-- Leaving out entry by entry what has the key of one already there keeps the first entries. -/
theorem foldl_concatNew (l : List α) : l.foldl (concatNew key) [] = firsts key l :=
  (firsts_append key [] l).symm

/-- No entry is left out just if no two have one key. -/
theorem firsts_eq_self_iff (l : List α) : firsts key l = l ↔ (l.map key).Nodup := by
  refine ⟨fun h => h ▸ nodup_map_firsts key l, fun h => ?_⟩
  induction l using List.reverseRecOn with
  | nil => rfl
  | append_singleton l a ih =>
    rw [List.map_append, List.nodup_append] at h
    obtain ⟨hl, -, hdisjoint⟩ := h
    have hnew : key a ∉ l.map key := fun hm =>
      hdisjoint _ hm _ (List.mem_singleton_self _) rfl
    rw [firsts_concat, if_neg hnew, ih hl]

/-- Where no two entries have one key, each is found by its key. -/
theorem filter_key_eq {l : List α} (h : (l.map key).Nodup) {a : α} (ha : a ∈ l) :
    l.filter (key · = key a) = [a] := by
  have hfirst := filter_firsts key l (key a)
  rw [(firsts_eq_self_iff key l).2 h] at hfirst
  cases hfind : l.find? (key · = key a) with
  | none => exact absurd (decide_eq_true rfl) (List.find?_eq_none.1 hfind a ha)
  | some b =>
    have hkey : key b = key a := by simpa using List.find?_some hfind
    rw [hfirst, hfind, List.inj_on_of_nodup_map h (List.mem_of_find?_eq_some hfind) ha hkey]
    rfl

/-- Entries with keys of their own come behind the others. -/
theorem firsts_append_of_disjoint {l m : List α} (h : ∀ a ∈ m, key a ∉ l.map key) :
    firsts key (l ++ m) = firsts key l ++ firsts key m := by
  induction m using List.reverseRecOn with
  | nil => rw [List.append_nil, firsts_nil, List.append_nil]
  | append_singleton m a ih =>
    obtain ⟨hm, ha⟩ := List.forall_mem_append.1 h
    have hnew : key a ∈ (l ++ m).map key ↔ key a ∈ m.map key := by
      rw [List.map_append, List.mem_append]
      exact or_iff_right (ha a List.mem_cons_self)
    rw [← List.append_assoc, firsts_concat, firsts_concat, ih hm, if_congr hnew rfl rfl,
      List.append_assoc]

/-- What is made of the first entries is what is made of all just if no two have one key. -/
theorem map_firsts_eq_iff {β : Type} (f : α → β) (l : List α) :
    (firsts key l).map f = l.map f ↔ (l.map key).Nodup := by
  rw [← firsts_eq_self_iff]
  refine ⟨fun h => (firsts_sublist key l).eq_of_length ?_, fun h => congrArg (List.map f) h⟩
  simpa using congrArg List.length h

/-- The entries of a mapped list. -/
theorem firsts_map {β : Type} (f : β → α) (l : List β) :
    firsts key (l.map f) = (firsts (fun b => key (f b)) l).map f := by
  induction l using List.reverseRecOn with
  | nil => rfl
  | append_singleton l b ih =>
    have hkeys : (l.map f).map key = l.map fun b => key (f b) := List.map_map
    rw [List.map_append, List.map_singleton, firsts_concat, firsts_concat, ih, List.map_append,
      hkeys]
    split_ifs <;> rfl

/-- Keys that tell the same entries apart have the same first entries. -/
theorem firsts_congr {κ' : Type} [DecidableEq κ'] {key' : α → κ'} {l : List α}
    (h : ∀ a b, key a = key b ↔ key' a = key' b) : firsts key l = firsts key' l := by
  have hmem : ∀ (a : α) (m : List α), key a ∈ m.map key ↔ key' a ∈ m.map key' := fun a m => by
    rw [List.mem_map, List.mem_map]
    exact exists_congr fun b => and_congr_right fun _ => h b a
  rw [firsts, firsts]
  congr 1
  exact List.filter_congr fun e _ => decide_eq_decide.2 (not_congr (hmem e.1 _))

/-- Of the first entries, those whose key has a property are the first ones of all that have it. -/
theorem filter_firsts_key (p : κ → Prop) [DecidablePred p] (l : List α) :
    (firsts key l).filter (fun a => p (key a)) = firsts key (l.filter fun a => p (key a)) := by
  induction l using List.reverseRecOn with
  | nil => rfl
  | append_singleton l a ih =>
    rw [firsts_concat, List.filter_append, List.filter_append, ih]
    by_cases hp : p (key a)
    · have hmem : key a ∈ (l.filter fun a => p (key a)).map key ↔ key a ∈ l.map key := by
        simp only [List.mem_map, List.mem_filter, decide_eq_true_eq]
        exact exists_congr fun b => ⟨fun h => ⟨h.1.1, h.2⟩, fun h => ⟨⟨h.1, h.2 ▸ hp⟩, h.2⟩⟩
      rw [List.filter_cons_of_pos (by simpa using hp), List.filter_nil, firsts_concat]
      congr 1
      rw [if_congr hmem rfl rfl]
      split_ifs <;> simp [hp]
    · rw [List.filter_cons_of_neg (by simpa using hp), List.filter_nil, List.append_nil]
      split_ifs <;> simp [hp]

/-- Entries are split by a key of theirs without loss and without repetition. -/
theorem perm_flatMap_filter {keys : List κ} (hkeys : keys.Nodup) {l : List α}
    (hl : ∀ a ∈ l, key a ∈ keys) :
    (keys.flatMap fun k => l.filter (key · = k)).Perm l := by
  induction keys generalizing l with
  | nil =>
    rw [List.eq_nil_iff_forall_not_mem.2 fun a ha => List.not_mem_nil (hl a ha)]
    exact List.Perm.nil
  | cons k keys ih =>
    obtain ⟨hk, hkeys⟩ := List.nodup_cons.1 hkeys
    have hrest : (keys.flatMap fun k' => l.filter (key · = k')) =
        keys.flatMap fun k' => (l.filter fun a => !decide (key a = k)).filter (key · = k') := by
      refine List.flatMap_congr fun k' hk' => ?_
      rw [List.filter_filter]
      refine List.filter_congr fun a _ => ?_
      by_cases ha : key a = k'
      · have hne : key a ≠ k := fun he => hk (he ▸ ha ▸ hk')
        simp [ha, ha ▸ hne]
      · simp [ha]
    rw [List.flatMap_cons, hrest]
    refine (List.Perm.append_left _ (ih hkeys fun a ha => ?_)).trans
      (List.filter_append_perm _ l)
    obtain ⟨ha, hne⟩ := List.mem_filter.1 ha
    exact (List.mem_cons.1 (hl a ha)).resolve_left (by simpa using hne)

end Atlas
