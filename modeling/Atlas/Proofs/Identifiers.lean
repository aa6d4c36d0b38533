import Atlas.Identifiers
import Atlas.Proofs.Text
import Mathlib.Algebra.Order.BigOperators.Group.List
import Mathlib.Algebra.Order.Ring.Nat
import Mathlib.Data.Finset.Card
import Mathlib.Data.List.Pairwise

/-!
# Identifiers are unique

`Allocates` is the search for a new identifier with no bound on the number of its looks. It ends :
every look at a candidate that was asked for before uses up a pair of such a candidate and a later
number whose candidate was asked for too (`room`), and `fresh` makes as many looks as there can be
such pairs (`allocates_fresh`).

A run of calls keeps a log of the calls with their answers. `Records` says what the allocated
identifiers know of the log : every answer was asked for, a key has the identifier of its first
entry, and two entries have one identifier exactly if they are for one key. A call keeps it
(`Records.answer`), so that it holds after every run (`Records.run`).
-/

set_option linter.unusedSectionVars false

namespace Atlas

/-- A letter or an underscore, then letters, digits and underscores, all of them ASCII. -/
def IsIdentifier (s : String) : Prop :=
  ∃ c r, s.toList = c :: r ∧ (c.isAlpha ∨ c = '_') ∧ ∀ d ∈ r, d.isAlphanum ∨ d = '_'

theorem IsIdentifier.forall_mem {s : String} (h : IsIdentifier s) :
    ∀ d ∈ s.toList, d.isAlphanum ∨ d = '_' := by
  obtain ⟨c, r, hs, hc, hr⟩ := h
  rw [hs]
  refine List.forall_mem_cons.2 ⟨hc.imp_left fun ha => ?_, hr⟩
  rw [Char.isAlphanum, ha, Bool.true_or]

theorem IsIdentifier.toList_ne_nil {s : String} (h : IsIdentifier s) : s.toList ≠ [] := by
  obtain ⟨c, r, hs, -⟩ := h
  rw [hs]
  exact List.cons_ne_nil c r

theorem IsIdentifier.space_notMem {s : String} (h : IsIdentifier s) : ' ' ∉ s.toList := fun hs =>
  absurd (h.forall_mem _ hs) (by decide)

theorem IsIdentifier.append {s t : String} (h : IsIdentifier s)
    (ht : ∀ d ∈ t.toList, d.isAlphanum ∨ d = '_') : IsIdentifier (s ++ t) := by
  obtain ⟨c, r, hs, hc, hr⟩ := h
  refine ⟨c, r ++ t.toList, ?_, hc, List.forall_mem_append.2 ⟨hr, ht⟩⟩
  rw [String.toList_append, hs, List.cons_append]

theorem oneLine_of_isIdentifier {id : String} (h : IsIdentifier id) : OneLine id :=
  ⟨fun hn => absurd (h.forall_mem _ hn) (by decide),
    fun hr => absurd (h.forall_mem _ hr) (by decide)⟩

namespace Identifiers

/-! ## The search without a bound -/

/-- Asking for candidates from `c` on ends with the identifier `id` : the candidate itself where it
is new, and what the search goes on to find from the base with the number of requests where it was
asked for before. -/
inductive Allocates (base : String) :
    String → List (String × ℕ) → String → List (String × ℕ) → Prop
  | new {c seen} (h : count seen c = 0) : Allocates base c seen c (countOnce c seen)
  | taken {c seen id seen'} (h : count seen c ≠ 0)
      (rest : Allocates base (numbered base (count seen c + 1)) (countOnce c seen) id seen') :
      Allocates base c seen id seen'

theorem count_le_countOnce (seen : List (String × ℕ)) (c d : String) :
    count seen d ≤ count (countOnce c seen) d := by
  rw [count_countOnce]
  split_ifs with h
  · rw [h]
    exact Nat.le_succ _
  · exact le_rfl

namespace Allocates

variable {base c id : String} {seen seen' : List (String × ℕ)}

theorem count_le (h : Allocates base c seen id seen') (d : String) :
    count seen d ≤ count seen' d := by
  induction h with
  | new => exact count_le_countOnce _ _ _
  | taken _ _ ih => exact (count_le_countOnce _ _ _).trans ih

/-- The identifier was not asked for before. -/
theorem count_eq_zero (h : Allocates base c seen id seen') : count seen id = 0 := by
  induction h with
  | new h => exact h
  | taken _ _ ih => exact Nat.le_zero.1 ((count_le_countOnce _ _ _).trans ih.le)

theorem count_ne_zero (h : Allocates base c seen id seen') : count seen' id ≠ 0 := by
  induction h with
  | new => rw [count_countOnce, if_pos rfl]; exact Nat.succ_ne_zero _
  | taken _ _ ih => exact ih

/-- The identifier is the first candidate or the base with a number. -/
theorem eq_or_eq_numbered (h : Allocates base c seen id seen') :
    id = c ∨ ∃ n, id = numbered base n := by
  induction h with
  | new => exact Or.inl rfl
  | taken _ _ ih =>
    rcases ih with rfl | h
    · exact Or.inr ⟨_, rfl⟩
    · exact Or.inr h

end Allocates

/-! ## The search ends -/

/-- What follows the last of some separators, and what stands before it. -/
theorem append_cons_inj_of_notMem_right {α : Type} {c : α} {a b s t : List α} (hs : c ∉ s)
    (ht : c ∉ t) (h : a ++ c :: s = b ++ c :: t) : a = b ∧ s = t := by
  have hnil : ∀ {u v w : List α}, c ∉ u → c :: u = v ++ c :: w → v = [] ∧ u = w := by
    intro u v w hu huv
    cases v with
    | nil => exact ⟨rfl, (List.cons.inj huv).2⟩
    | cons d v =>
      rw [List.cons_append] at huv
      exact absurd (by rw [(List.cons.inj huv).2]; simp) hu
  rcases List.append_eq_append_iff.1 h with ⟨d, rfl, hd⟩ | ⟨d, rfl, hd⟩
  · obtain ⟨rfl, rfl⟩ := hnil hs hd
    exact ⟨(List.append_nil a).symm, rfl⟩
  · obtain ⟨rfl, rfl⟩ := hnil ht hd
    exact ⟨List.append_nil b, rfl⟩

/-- The number of a name begins after its last underscore. -/
theorem numbered_inj {base base' : String} {m n : ℕ} :
    numbered base m = numbered base' n ↔ base = base' ∧ m = n := by
  refine ⟨fun h => ?_, fun h => by rw [h.1, h.2]⟩
  have hdigits : ∀ k : ℕ, '_' ∉ Nat.toDigits 10 k := fun k hk =>
    absurd (Nat.isDigit_of_mem_toDigits (by omega) (by omega) hk) (by decide)
  have hl : base.toList ++ '_' :: Nat.toDigits 10 m = base'.toList ++ '_' :: Nat.toDigits 10 n := by
    simpa [numbered, String.ext_iff] using h
  obtain ⟨hb, hd⟩ := append_cons_inj_of_notMem_right (hdigits m) (hdigits n) hl
  refine ⟨String.toList_inj.1 hb, ?_⟩
  rw [← Nat.ofDigitChars_ten_toDigits (n := m), hd, Nat.ofDigitChars_ten_toDigits]

theorem numbered_injective (base : String) : Function.Injective (numbered base) := fun _ _ h =>
  (numbered_inj.1 h).2

theorem mem_of_count_ne_zero {seen : List (String × ℕ)} {c : String} (h : count seen c ≠ 0) :
    c ∈ seen.map Prod.fst := by
  induction seen with
  | nil => exact absurd rfl h
  | cons e r ih =>
    obtain ⟨d, n⟩ := e
    rw [count_cons] at h
    split_ifs at h with hd
    · simp [hd]
    · exact List.mem_cons_of_mem _ (ih h)

theorem map_fst_countOnce {seen : List (String × ℕ)} {c : String} (h : c ∈ seen.map Prod.fst) :
    (countOnce c seen).map Prod.fst = seen.map Prod.fst := by
  induction seen with
  | nil => simp at h
  | cons e r ih =>
    obtain ⟨d, n⟩ := e
    rw [countOnce]
    split_ifs with hd
    · rfl
    · rw [List.map_cons, ih ((List.mem_cons.1 h).resolve_left (Ne.symm hd)), List.map_cons]

/-- Counting a candidate once more changes a sum over the counts by what it changes for this
candidate. -/
theorem sum_countOnce (f : ℕ → ℕ) {seen : List (String × ℕ)} {c : String}
    (h : c ∈ seen.map Prod.fst) :
    ((countOnce c seen).map fun e => f e.2).sum + f (count seen c) =
      (seen.map fun e => f e.2).sum + f (count seen c + 1) := by
  induction seen with
  | nil => simp at h
  | cons e r ih =>
    obtain ⟨d, n⟩ := e
    rw [countOnce, count_cons]
    by_cases hd : d = c
    · simp only [hd, if_true, List.map_cons, List.sum_cons]
      omega
    · have := ih ((List.mem_cons.1 h).resolve_left (Ne.symm hd))
      simp only [hd, Ne.symm hd, if_false, List.map_cons, List.sum_cons]
      omega

section Room

open Classical

/-- How many of some names are the base with a number above `n`. -/
noncomputable def later (base : String) (names : List String) (n : ℕ) : ℕ :=
  (names.toFinset.filter fun c => ∃ m, n < m ∧ c = numbered base m).card

theorem later_le (base : String) (names : List String) (n : ℕ) :
    later base names n ≤ names.length :=
  (Finset.card_filter_le _ _).trans (List.toFinset_card_le names)

theorem later_succ_lt {base : String} {names : List String} {n : ℕ}
    (h : numbered base (n + 1) ∈ names) : later base names (n + 1) < later base names n := by
  refine Finset.card_lt_card ((Finset.ssubset_iff_of_subset ?_).2 ⟨numbered base (n + 1), ?_, ?_⟩)
  · intro c hc
    obtain ⟨hm, m, hlt, rfl⟩ := Finset.mem_filter.1 hc
    exact Finset.mem_filter.2 ⟨hm, m, by omega, rfl⟩
  · exact Finset.mem_filter.2 ⟨List.mem_toFinset.2 h, n + 1, by omega, rfl⟩
  · intro hc
    obtain ⟨-, m, hlt, he⟩ := Finset.mem_filter.1 hc
    exact absurd (numbered_injective base he) (by omega)

/-- The looks that the search can still make without end : the pairs of a candidate asked for and
a number above its count whose candidate was asked for. -/
noncomputable def room (base : String) (seen : List (String × ℕ)) : ℕ :=
  (seen.map fun e => later base (seen.map Prod.fst) e.2).sum

theorem room_le (base : String) (seen : List (String × ℕ)) :
    room base seen ≤ seen.length * seen.length := by
  have := List.sum_le_card_nsmul (seen.map fun e => later base (seen.map Prod.fst) e.2)
    seen.length fun n hn => by
      obtain ⟨e, -, rfl⟩ := List.mem_map.1 hn
      simpa using later_le base (seen.map Prod.fst) e.2
  simpa [room] using this

/-- A look that leads to another candidate asked for before uses up room. -/
theorem room_countOnce_lt {base c : String} {seen : List (String × ℕ)} (hc : count seen c ≠ 0)
    (hn : count (countOnce c seen) (numbered base (count seen c + 1)) ≠ 0) :
    room base (countOnce c seen) < room base seen := by
  have hmem := mem_of_count_ne_zero hc
  have hnext := mem_of_count_ne_zero hn
  rw [map_fst_countOnce hmem] at hnext
  have hlt := later_succ_lt hnext
  have hsum := sum_countOnce (later base (seen.map Prod.fst)) hmem
  rw [room, room, map_fst_countOnce hmem]
  omega

end Room

/-- With a look for each pair left and two more, the search ends by itself. -/
theorem allocates_search (base : String) :
    ∀ (fuel : ℕ) (c : String) (seen : List (String × ℕ)),
      (count seen c = 0 ∧ 0 < fuel) ∨ room base seen + 2 ≤ fuel →
      Allocates base c seen (search base fuel c seen).1 (search base fuel c seen).2
  | 0, c, seen, h => by omega
  | fuel + 1, c, seen, h => by
    by_cases hc : count seen c = 0
    · simpa [search, hc] using Allocates.new hc
    · have hs : search base (fuel + 1) c seen =
          search base fuel (numbered base (count seen c + 1)) (countOnce c seen) := by
        simp [search, hc]
      rw [hs]
      refine Allocates.taken hc (allocates_search base fuel _ _ ?_)
      by_cases hn : count (countOnce c seen) (numbered base (count seen c + 1)) = 0
      · exact Or.inl ⟨hn, by omega⟩
      · have := room_countOnce_lt hc hn
        exact Or.inr (by omega)

/-- A new identifier is what the search without a bound finds. -/
theorem allocates_fresh (ids : Identifiers) (name : String) :
    Allocates (Text.identifier name) (Text.identifier name) ids.seen
      (ids.fresh name).1 (ids.fresh name).2.seen :=
  allocates_search _ _ _ _ (Or.inr (Nat.add_le_add_right (room_le _ _) 2))

/-! ## The form of an identifier -/

theorem startsIdentifier_iff (c : Char) :
    Chars.startsIdentifier c = true ↔ c.isAlpha ∨ c = '_' := by
  have hlower : c.isLower = (decide ('a' ≤ c) && decide (c ≤ 'z')) := rfl
  have hupper : c.isUpper = (decide ('A' ≤ c) && decide (c ≤ 'Z')) := Bool.decide_and _ _
  have halpha : c.isAlpha = (c.isUpper || c.isLower) := rfl
  rw [Chars.startsIdentifier, ← hlower, ← hupper, Bool.or_comm c.isLower, ← halpha,
    Bool.or_eq_true, beq_iff_eq]

theorem inIdentifier_iff (c : Char) :
    Chars.inIdentifier c = true ↔ c.isAlphanum ∨ c = '_' := by
  have hdigit : c.isDigit = (decide ('0' ≤ c) && decide (c ≤ '9')) := rfl
  have halphanum : c.isAlphanum = (c.isAlpha || c.isDigit) := rfl
  rw [Chars.inIdentifier, ← hdigit, halphanum, Bool.or_eq_true, Bool.or_eq_true,
    startsIdentifier_iff, or_right_comm]

theorem isIdentifier_identifier (name : String) : IsIdentifier (Text.identifier name) := by
  have hl : (Text.identifier name).toList = Chars.identifier name.toList := by
    simp [Text.identifier, Text.onChars]
  obtain ⟨c, r, he, hc⟩ := Chars.identifier_eq_cons name.toList
  refine ⟨c, r, hl.trans he, (startsIdentifier_iff c).1 hc, fun d hd => (inIdentifier_iff d).1 ?_⟩
  have hd' : d ∈ Chars.identifier name.toList := he ▸ List.mem_cons_of_mem c hd
  exact Chars.inIdentifier_of_mem_identifier hd'

/-- A name that is an identifier already is its own. -/
theorem identifier_of_isIdentifier {id : String} (h : IsIdentifier id) :
    Text.identifier id = id := by
  have hmap : (id.toList.map fun c => if Chars.inIdentifier c then c else '_') = id.toList :=
    (List.map_congr_left fun c hc => if_pos ((inIdentifier_iff c).2 (h.forall_mem c hc))).trans
      (List.map_id _)
  obtain ⟨c, r, hs, hc, -⟩ := h
  have hl : Chars.identifier id.toList = id.toList := by
    rw [Chars.identifier, hmap, hs]
    exact if_pos ((startsIdentifier_iff c).2 hc)
  rw [Text.identifier, Text.onChars, hl, String.ofList_toList]

theorem isIdentifier_numbered {base : String} (h : IsIdentifier base) (n : ℕ) :
    IsIdentifier (numbered base n) := by
  have htext : ("_" ++ toString n).toList = '_' :: Nat.toDigits 10 n := by simp
  rw [numbered, String.append_assoc]
  refine h.append ?_
  rw [htext]
  refine List.forall_mem_cons.2 ⟨Or.inr rfl, fun d hd => Or.inl ?_⟩
  have hdigit := Nat.isDigit_of_mem_toDigits (by omega) (by omega) hd
  simp [Char.isAlphanum, hdigit]

theorem isIdentifier_fresh (ids : Identifiers) (name : String) :
    IsIdentifier (ids.fresh name).1 := by
  rcases (allocates_fresh ids name).eq_or_eq_numbered with h | ⟨n, h⟩
  · rw [h]
    exact isIdentifier_identifier name
  · rw [h]
    exact isIdentifier_numbered (isIdentifier_identifier name) n

/-! ## Calls -/

/-- A request for an identifier : for a new one, or for the one of a key. -/
inductive Call where
  | fresh (name : String)
  | idFor (key name : String)
  deriving DecidableEq

/-- The key that a call is for. -/
def Call.key? : Call → Option String
  | fresh _ => none
  | idFor key _ => some key

/-- The identifier that a call gets. -/
def answer (ids : Identifiers) : Call → String × Identifiers
  | .fresh name => ids.fresh name
  | .idFor key name => ids.idFor key name

/-- The identifiers that some calls get one after another. -/
def run (ids : Identifiers) : List Call → List String × Identifiers
  | [] => ([], ids)
  | c :: cs =>
    let (id, ids) := ids.answer c
    let (rest, ids) := run ids cs
    (id :: rest, ids)

/-- Some calls get these answers, with no bound on the looks of any search. -/
inductive Runs : Identifiers → List Call → List String → Identifiers → Prop
  | nil {ids} : Runs ids [] [] ids
  | fresh {ids name id seen calls answers ids'}
      (found : Allocates (Text.identifier name) (Text.identifier name) ids.seen id seen)
      (rest : Runs { ids with seen } calls answers ids') :
      Runs ids (.fresh name :: calls) (id :: answers) ids'
  | known {ids key name id calls answers ids'} (known : ids.lookup? key = some id)
      (rest : Runs ids calls answers ids') :
      Runs ids (.idFor key name :: calls) (id :: answers) ids'
  | new {ids key name id seen calls answers ids'} (unknown : ids.lookup? key = none)
      (found : Allocates (Text.identifier name) (Text.identifier name) ids.seen id seen)
      (rest : Runs ⟨seen, ids.byKey ++ [(key, id)]⟩ calls answers ids') :
      Runs ids (.idFor key name :: calls) (id :: answers) ids'

theorem idFor_of_some {ids : Identifiers} {key id : String} (h : ids.lookup? key = some id)
    (name : String) : ids.idFor key name = (id, ids) := by
  simp [idFor, h]

theorem idFor_of_none {ids : Identifiers} {key : String} (h : ids.lookup? key = none)
    (name : String) : ids.idFor key name =
      ((ids.fresh name).1, ⟨(ids.fresh name).2.seen, ids.byKey ++ [(key, (ids.fresh name).1)]⟩) := by
  simp [idFor, h, fresh]

theorem length_run : ∀ (calls : List Call) (ids : Identifiers),
    (run ids calls).1.length = calls.length
  | [], _ => rfl
  | c :: calls, ids => congrArg Nat.succ (length_run calls (ids.answer c).2)

/-- The searches of a run end. -/
theorem runs_run : ∀ (calls : List Call) (ids : Identifiers),
    Runs ids calls (run ids calls).1 (run ids calls).2
  | [], _ => Runs.nil
  | .fresh name :: calls, ids => Runs.fresh (allocates_fresh ids name) (runs_run calls _)
  | .idFor key name :: calls, ids => by
    cases h : ids.lookup? key with
    | some id =>
      simpa only [run, answer, idFor_of_some h] using Runs.known h (runs_run calls ids)
    | none =>
      simpa only [run, answer, idFor_of_none h] using
        Runs.new h (allocates_fresh ids name) (runs_run calls _)

/-! ## The log of a run -/

/-- Whether two calls are for one key. -/
def SameKey (c d : Call) : Prop :=
  ∃ key, c.key? = some key ∧ d.key? = some key

/-- The identifiers are those that the calls of the log got. -/
structure Records (log : List (Call × String)) (ids : Identifiers) : Prop where
  asked : ∀ e ∈ log, count ids.seen e.2 ≠ 0
  byKey : ∀ key, ids.lookup? key = (log.find? fun e => e.1.key? = some key).map Prod.snd
  apart : log.Pairwise fun e f => e.2 = f.2 ↔ SameKey e.1 f.1
  form : ∀ e ∈ log, IsIdentifier e.2

namespace Records

variable {log : List (Call × String)} {ids : Identifiers}

theorem empty : Records [] Identifiers.empty where
  asked := by simp
  byKey := by simp [lookup?, Identifiers.empty]
  apart := List.Pairwise.nil
  form := by simp

/-- A key that is known has the identifier of an entry for it. -/
theorem exists_of_lookup? (h : Records log ids) {key id : String}
    (hk : ids.lookup? key = some id) : ∃ e ∈ log, e.1.key? = some key ∧ e.2 = id := by
  rw [h.byKey] at hk
  obtain ⟨e, he, hid⟩ := Option.map_eq_some_iff.1 hk
  exact ⟨e, List.mem_of_find?_eq_some he, by simpa using List.find?_some he, hid⟩

/-- No entry is for a key that is not known. -/
theorem key?_ne_of_lookup? (h : Records log ids) {key : String} (hk : ids.lookup? key = none)
    {e : Call × String} (he : e ∈ log) : e.1.key? ≠ some key := by
  rw [h.byKey, Option.map_eq_none_iff, List.find?_eq_none] at hk
  simpa using hk e he

/-- An entry has the identifier of another that is for a key exactly if it is for this key too. -/
theorem eq_iff_of_key? (h : Records log ids) {key : String} {e f : Call × String} (he : e ∈ log)
    (hf : f ∈ log) (hk : f.1.key? = some key) : e.2 = f.2 ↔ e.1.key? = some key := by
  have : Std.Symm fun e f : Call × String => e.2 = f.2 ↔ SameKey e.1 f.1 := ⟨fun a b hab => by
    rw [eq_comm, hab]
    exact exists_congr fun _ => and_comm⟩
  by_cases hef : e = f
  · simp [hef, hk]
  · rw [h.apart.forall he hf hef]
    exact ⟨fun ⟨_, h1, h2⟩ => by rw [h1, ← h2, hk], fun h1 => ⟨key, h1, hk⟩⟩

/-- A call that gets a new identifier. The keys are as before, with the key of the call put behind
them if it has one. -/
theorem concat_new (h : Records log ids) {base id : String} {ids' : Identifiers} {c : Call}
    (hf : Allocates base base ids.seen id ids'.seen) (hform : IsIdentifier id)
    (hnew : ∀ key, c.key? = some key → ids.lookup? key = none)
    (hkeys : ∀ key, ids'.lookup? key =
      (ids.lookup? key).or (if c.key? = some key then some id else none)) :
    Records (log ++ [(c, id)]) ids' where
  asked := by
    refine List.forall_mem_append.2 ⟨fun e he => ?_, List.forall_mem_singleton.2 hf.count_ne_zero⟩
    have := hf.count_le e.2
    have := h.asked e he
    omega
  byKey key := by
    rw [hkeys, h.byKey, List.find?_append, Option.map_or]
    by_cases hc : c.key? = some key <;> simp [hc]
  apart := by
    refine List.pairwise_append.2 ⟨h.apart, List.pairwise_singleton _ _, fun e he f hfm => ?_⟩
    rw [List.mem_singleton.1 hfm]
    constructor
    · intro hid
      have hid : e.2 = id := hid
      exact absurd (hid ▸ hf.count_eq_zero) (h.asked e he)
    · rintro ⟨key, he', hc⟩
      exact absurd he' (h.key?_ne_of_lookup? (hnew key hc) he)
  form := List.forall_mem_append.2 ⟨h.form, List.forall_mem_singleton.2 hform⟩

/-- A call for a key that is known. -/
theorem concat_known (h : Records log ids) {key id : String} (hk : ids.lookup? key = some id)
    (name : String) : Records (log ++ [(.idFor key name, id)]) ids := by
  obtain ⟨f, hf, hfk, rfl⟩ := h.exists_of_lookup? hk
  refine ⟨List.forall_mem_append.2 ⟨h.asked, List.forall_mem_singleton.2 (h.asked f hf)⟩,
    fun key' => ?_, ?_, List.forall_mem_append.2 ⟨h.form, List.forall_mem_singleton.2 (h.form f hf)⟩⟩
  · rw [List.find?_append, Option.map_or, ← h.byKey]
    by_cases hkey : key = key'
    · rw [← hkey, hk, Option.some_or]
    · simp [Call.key?, hkey]
  · refine List.pairwise_append.2 ⟨h.apart, List.pairwise_singleton _ _, fun e he g hg => ?_⟩
    rw [List.mem_singleton.1 hg]
    refine (h.eq_iff_of_key? he hf hfk).trans ⟨fun hek => ⟨key, hek, rfl⟩, ?_⟩
    rintro ⟨_, hek, hck⟩
    rw [hek, ← hck]
    rfl

/-- A call keeps the record. -/
theorem answer (h : Records log ids) (c : Call) :
    Records (log ++ [(c, (ids.answer c).1)]) (ids.answer c).2 := by
  cases c with
  | fresh name =>
    exact h.concat_new (allocates_fresh ids name) (isIdentifier_fresh ids name)
      (by simp [Call.key?]) (by simp [Call.key?, Identifiers.answer, Identifiers.fresh, lookup?])
  | idFor key name =>
    cases hk : ids.lookup? key with
    | some id =>
      simpa only [Identifiers.answer, idFor_of_some hk] using h.concat_known hk name
    | none =>
      rw [Identifiers.answer, idFor_of_none hk]
      refine h.concat_new (allocates_fresh ids name) (isIdentifier_fresh ids name) ?_ fun key' => ?_
      · rintro key' ⟨⟩
        exact hk
      · simp only [lookup?, List.lookup_append, Call.key?, Option.some.injEq]
        by_cases hkey : key = key'
        · simp [hkey]
        · simp [hkey, Ne.symm hkey]

/-- After a run the log goes on with the calls and their answers. -/
theorem run : ∀ (calls : List Call) {log : List (Call × String)} {ids : Identifiers},
    Records log ids → Records (log ++ calls.zip (ids.run calls).1) (ids.run calls).2
  | [], _, _, h => by simpa [Identifiers.run] using h
  | c :: calls, _, _, h => by simpa [Identifiers.run] using run calls (h.answer c)

end Records

/-- For any calls, from no identifier on : every search ends; every answer has the form of an
identifier; two answers are one identifier exactly if their calls are for one key; and a key has
the identifier of the first call that was for it, and none if there was no such call. -/
theorem unique_run_empty (calls : List Call) :
    Runs empty calls (run empty calls).1 (run empty calls).2 ∧
      (∀ id ∈ (run empty calls).1, IsIdentifier id) ∧
      ((calls.zip (run empty calls).1).Pairwise fun e f => e.2 = f.2 ↔ SameKey e.1 f.1) ∧
      ∀ key, (run empty calls).2.lookup? key =
        ((calls.zip (run empty calls).1).find? fun e => e.1.key? = some key).map Prod.snd := by
  have h : Records (calls.zip (run empty calls).1) (run empty calls).2 := by
    simpa using Records.empty.run calls
  have hanswers : (calls.zip (run empty calls).1).map Prod.snd = (run empty calls).1 :=
    List.map_snd_zip (length_run calls empty).le
  refine ⟨runs_run calls empty, fun id hid => ?_, h.apart, h.byKey⟩
  rw [← hanswers] at hid
  obtain ⟨e, he, rfl⟩ := List.mem_map.1 hid
  exact h.form e he

example : (run empty [.fresh "a", .fresh "a_2", .fresh "a"]).1 = ["a", "a_2", "a_3"] := by
  decide

/-! ## Going on with identifiers -/

/-- The identifiers that some calls have left. -/
def Reached (ids : Identifiers) : Prop :=
  ∃ log, Records log ids

theorem reached_empty : Reached .empty :=
  ⟨[], Records.empty⟩

/-- Two keys with one identifier are one key. -/
theorem Reached.key_inj {ids : Identifiers} (h : Reached ids) {key key' id : String}
    (hkey : ids.lookup? key = some id) (hkey' : ids.lookup? key' = some id) : key = key' := by
  obtain ⟨log, h⟩ := h
  obtain ⟨e, he, hek, hid⟩ := h.exists_of_lookup? hkey
  obtain ⟨f, hf, hfk, hid'⟩ := h.exists_of_lookup? hkey'
  have hsame := (h.eq_iff_of_key? he hf hfk).1 (hid.trans hid'.symm)
  exact Option.some.inj (hek.symm.trans hsame)

/-- Identifiers that further calls have left: every key has kept its own. -/
structure Continues (ids ids' : Identifiers) : Prop where
  reached : Reached ids'
  kept : ∀ {key id : String}, ids.lookup? key = some id → ids'.lookup? key = some id

theorem Continues.refl {ids : Identifiers} (h : Reached ids) : Continues ids ids :=
  ⟨h, fun hid => hid⟩

theorem Continues.trans {ids ids' ids'' : Identifiers} (h : Continues ids ids')
    (h' : Continues ids' ids'') : Continues ids ids'' :=
  ⟨h'.reached, fun hid => h'.kept (h.kept hid)⟩

theorem Reached.idFor {ids : Identifiers} (h : Reached ids) (key name : String) :
    IsIdentifier (ids.idFor key name).1 ∧ Continues ids (ids.idFor key name).2 := by
  obtain ⟨log, h⟩ := h
  have hcall := h.answer (.idFor key name)
  refine ⟨hcall.form _ (List.mem_append_right _ List.mem_cons_self), ⟨_, hcall⟩, ?_⟩
  intro key' id hid
  cases hkey : ids.lookup? key with
  | some _ => rwa [idFor_of_some hkey]
  | none =>
    rw [idFor_of_none hkey]
    simp only [lookup?, List.lookup_append] at hid ⊢
    rw [hid, Option.some_or]

end Identifiers

end Atlas
