/-!
# Places by key

A list whose entries are found by key has a table of places beside it. `Indexes` says that the
table and the list agree: a key has the place `i` in the table exactly if it stands at `i` in the
list. A table that agrees with a list tells its keys apart (`Indexes.nodup`), and it goes on to agree
where a key that it does not know is put at the end of the list (`Indexes.concat`).
-/

set_option linter.unusedSectionVars false

namespace Atlas

variable {κ : Type}

/-- Places by key. Of two entries for one key the first counts. -/
abbrev Places (κ : Type) := List (κ × Nat)

namespace Places

variable [DecidableEq κ]

/-- The table has exactly the keys of the list, each with its place there. -/
def Indexes (places : Places κ) (keys : List κ) : Prop :=
  ∀ k i, places.lookup k = some i ↔ keys[i]? = some k

namespace Indexes

variable {places : Places κ} {keys : List κ}

theorem nil : Indexes ([] : Places κ) [] := by
  simp [Indexes]

theorem mem (h : Indexes places keys) {k : κ} {i : Nat} (hi : places.lookup k = some i) :
    k ∈ keys :=
  List.mem_of_getElem? ((h k i).1 hi)

theorem lookup_eq_none_iff (h : Indexes places keys) {k : κ} :
    places.lookup k = none ↔ k ∉ keys := by
  constructor
  · intro hn hk
    obtain ⟨i, hi⟩ := List.mem_iff_getElem?.1 hk
    rw [(h k i).2 hi] at hn
    exact absurd hn (by simp)
  · intro hk
    cases hl : places.lookup k with
    | none => rfl
    | some i => exact absurd (h.mem hl) hk

/-- No key stands at two places. -/
theorem nodup (h : Indexes places keys) : keys.Nodup := by
  refine List.pairwise_iff_getElem.2 fun i j hi hj hij he => ?_
  have hpi := (h keys[i] i).2 (List.getElem?_eq_getElem hi)
  have hpj := (h keys[i] j).2 (he ▸ List.getElem?_eq_getElem hj)
  rw [hpi] at hpj
  exact absurd (Option.some.inj hpj) (by omega)

/-- A new key at the end of the list, and its place in the table. -/
theorem concat (h : Indexes places keys) {k : κ} (hk : places.lookup k = none) :
    Indexes ((k, keys.length) :: places) (keys ++ [k]) := by
  have hmem := h.lookup_eq_none_iff.1 hk
  intro k' i
  rw [List.lookup_cons]
  by_cases he : k' = k
  · subst he
    simp only [beq_self_eq_true, Option.some.injEq]
    constructor
    · rintro rfl
      simp
    · intro hi
      rcases Nat.lt_or_ge i keys.length with hlt | hge
      · rw [List.getElem?_append_left hlt] at hi
        exact absurd (List.mem_of_getElem? hi) hmem
      · have := (List.getElem?_eq_some_iff.1 hi).1
        simp at this
        omega
  · have hb : (k' == k) = false := by simpa using he
    simp only [hb, h k' i]
    constructor
    · intro hi
      rw [List.getElem?_append_left (List.getElem?_eq_some_iff.1 hi).1, hi]
    · intro hi
      rcases Nat.lt_or_ge i keys.length with hlt | hge
      · rwa [List.getElem?_append_left hlt] at hi
      · rw [List.getElem?_append_right hge] at hi
        have := List.mem_of_getElem? hi
        simp [he] at this

end Indexes

end Places

end Atlas
