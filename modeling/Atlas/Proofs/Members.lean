import Atlas.Data.Basic
import Mathlib.Data.List.Induction
import Mathlib.Data.String.Basic

/-!
# Members in the order of names

Lists of members with a name each. Inserting a member changes what is found under its own name and
nothing else (`lookup_insertMember`), whatever the list. In a list that stands in the order of names
(`InOrder`) no name occurs twice, so that a member is found by its name
(`InOrder.lookup_eq_some_iff`), and such a list stays in order when a member is inserted
(`InOrder.insertMember`). Any list is put in order by inserting its members one by one
(`Data.inOrder_sortedMembers`), and one in order is left as it is (`Data.sortedMembers_of_inOrder`).
-/

set_option linter.unusedSectionVars false

namespace Atlas

variable {α : Type}

/-- The members stand in the order of their names, each name once. -/
def InOrder (es : List (String × α)) : Prop :=
  (es.map Prod.fst).Pairwise (· < ·)

theorem lookup_cons_eq (e : String × α) (es : List (String × α)) (k : String) :
    (e :: es).lookup k = if k = e.1 then some e.2 else es.lookup k := by
  rw [List.lookup_cons]
  by_cases h : k = e.1
  · simp [h]
  · have hb : (k == e.1) = false := by simpa using h
    rw [hb, if_neg h]

namespace Data

theorem mem_insertMember {name : String} {v : α} {es : List (String × α)} {e : String × α}
    (h : e ∈ insertMember name v es) : e = (name, v) ∨ e ∈ es := by
  induction es with
  | nil => exact Or.inl (List.mem_singleton.1 h)
  | cons e' es ih =>
    rw [insertMember] at h
    split_ifs at h
    · exact List.mem_cons.1 h
    · exact (List.mem_cons.1 h).imp_right (List.mem_cons_of_mem _)
    · rcases List.mem_cons.1 h with rfl | h
      · exact Or.inr List.mem_cons_self
      · exact (ih h).imp_right (List.mem_cons_of_mem _)

/-- An inserted member is found under its name, and all others are found as before. -/
theorem lookup_insertMember (name : String) (v : α) (es : List (String × α)) (k : String) :
    (insertMember name v es).lookup k = if k = name then some v else es.lookup k := by
  induction es with
  | nil => exact lookup_cons_eq (name, v) [] k
  | cons e es ih =>
    rw [insertMember]
    split
    · exact lookup_cons_eq (name, v) (e :: es) k
    · split
      · next heq =>
        rw [lookup_cons_eq, lookup_cons_eq, heq]
        split_ifs <;> rfl
      · next hne =>
        rw [lookup_cons_eq, lookup_cons_eq, ih]
        by_cases hk : k = name
        · rw [if_neg fun he => hne (hk.symm.trans he), if_pos hk, if_pos hk]
        · rw [if_neg hk, if_neg hk]

end Data

namespace InOrder

variable {es : List (String × α)}

theorem nil : InOrder ([] : List (String × α)) :=
  List.Pairwise.nil

theorem cons_iff {e : String × α} :
    InOrder (e :: es) ↔ (∀ e' ∈ es, e.1 < e'.1) ∧ InOrder es := by
  simp [InOrder]

theorem nodup (h : InOrder es) : (es.map Prod.fst).Nodup :=
  h.imp ne_of_lt

/-- A member is found by its name. -/
theorem lookup_eq_some_iff (h : InOrder es) {name : String} {v : α} :
    es.lookup name = some v ↔ (name, v) ∈ es := by
  induction es with
  | nil => simp
  | cons e es ih =>
    obtain ⟨hlt, hes⟩ := cons_iff.1 h
    rw [lookup_cons_eq, List.mem_cons]
    by_cases hn : name = e.1
    · rw [if_pos hn, Option.some.injEq]
      refine ⟨fun hv => Or.inl (Prod.ext hn hv.symm), ?_⟩
      rintro (he | hm)
      · exact (congrArg Prod.snd he).symm
      · exact absurd (hlt _ hm) (hn ▸ lt_irrefl _)
    · rw [if_neg hn, ih hes]
      exact ⟨Or.inr, fun hm => hm.resolve_left fun he => hn (congrArg Prod.fst he)⟩

theorem insertMember (h : InOrder es) (name : String) (v : α) :
    InOrder (Data.insertMember name v es) := by
  induction es with
  | nil => simp [Data.insertMember, InOrder]
  | cons e es ih =>
    obtain ⟨hlt, hes⟩ := cons_iff.1 h
    rw [Data.insertMember]
    split_ifs with hn he
    · refine cons_iff.2 ⟨fun e' he' => ?_, h⟩
      rcases List.mem_cons.1 he' with rfl | he'
      · exact hn
      · exact hn.trans (hlt e' he')
    · exact cons_iff.2 ⟨fun e' he' => he ▸ hlt e' he', hes⟩
    · refine cons_iff.2 ⟨fun e' he' => ?_, ih hes⟩
      rcases Data.mem_insertMember he' with rfl | he'
      · exact lt_of_le_of_ne (not_lt.1 hn) (Ne.symm he)
      · exact hlt e' he'

end InOrder

namespace Data

theorem sortedMembers_append (es : List (String × α)) (e : String × α) :
    sortedMembers (es ++ [e]) = insertMember e.1 e.2 (sortedMembers es) := by
  rw [sortedMembers, List.foldl_append]
  rfl

/-- A member behind all others is inserted there. -/
theorem insertMember_of_forall_lt {name : String} (v : α) {es : List (String × α)}
    (h : ∀ e ∈ es, e.1 < name) : insertMember name v es = es ++ [(name, v)] := by
  induction es with
  | nil => rfl
  | cons e es ih =>
    obtain ⟨he, hes⟩ := List.forall_mem_cons.1 h
    rw [insertMember, if_neg (not_lt_of_gt he), if_neg he.ne', ih hes]
    rfl

/-- Members in order are left as they are. -/
theorem sortedMembers_of_inOrder {es : List (String × α)} (h : InOrder es) :
    sortedMembers es = es := by
  induction es using List.reverseRecOn with
  | nil => rfl
  | append_singleton es e ih =>
    rw [InOrder, List.map_append, List.pairwise_append] at h
    rw [sortedMembers_append, ih h.1, insertMember_of_forall_lt]
    exact fun e' he' => h.2.2 _ (List.mem_map_of_mem he') _ List.mem_cons_self

theorem inOrder_sortedMembers (es : List (String × α)) : InOrder (sortedMembers es) :=
  es.foldlRecOn _ InOrder.nil fun _ hacc e _ => hacc.insertMember e.1 e.2

theorem mem_of_mem_sortedMembers {es : List (String × α)} {e : String × α}
    (h : e ∈ sortedMembers es) : e ∈ es := by
  induction es using List.reverseRecOn with
  | nil => exact h
  | append_singleton es e' ih =>
    rw [sortedMembers_append] at h
    rcases mem_insertMember h with rfl | h
    · exact List.mem_append_right _ List.mem_cons_self
    · exact List.mem_append_left _ (ih h)

end Data

end Atlas
