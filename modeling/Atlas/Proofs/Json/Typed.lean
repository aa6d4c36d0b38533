import Atlas.Json.Typed
import Atlas.Proofs.Json.Written
import Atlas.Proofs.Members
import Mathlib.Data.List.Nodup

/-!
# Typed reading again

What a typed reader gives is read again from the tree that is written for it, and that tree holds
no numbers but those of the tree that was read (`Rereads`). This holds for texts, truth values and
plain data, whose records are in order by then (`Data.Held`), and it is kept by lists and records of
values. A structure is written as a record with the members that have a value (`ofSlots`). Its
fields are found there by their names (`fields_ofSlots`), and what a field holds is read again
(`field_again`) if it is left out only where it holds what stands for a missing field (`Kept`).

The depth that is left is the same when a tree is read again, so the limit on nested lists and
records is no obstacle.
-/

set_option linter.unusedSectionVars false

namespace Atlas

/-! ## Lists of values -/

section MapM

variable {α β : Type} {f : α → Option β}

theorem exists_of_mem_mapM {as : List α} {bs : List β} (h : as.mapM f = some bs) {b : β}
    (hb : b ∈ bs) : ∃ a ∈ as, f a = some b := by
  induction as generalizing bs with
  | nil =>
    cases h
    cases hb
  | cons a as ih =>
    simp only [List.mapM_cons, Option.bind_eq_bind, Option.bind_eq_some_iff, Option.pure_def,
      Option.some.injEq] at h
    obtain ⟨c, hc, cs, hcs, rfl⟩ := h
    rcases List.mem_cons.1 hb with rfl | hb
    · exact ⟨a, List.mem_cons_self, hc⟩
    · obtain ⟨a, ha, hb⟩ := ih hcs hb
      exact ⟨a, List.mem_cons_of_mem _ ha, hb⟩

theorem mapM_map_of_forall {g : β → α} {bs : List β} (h : ∀ b ∈ bs, f (g b) = some b) :
    (bs.map g).mapM f = some bs := by
  induction bs with
  | nil => rfl
  | cons b bs ih =>
    obtain ⟨hb, hbs⟩ := List.forall_mem_cons.1 h
    rw [List.map_cons, List.mapM_cons, hb, ih hbs]
    rfl

/-- Where every entry has a value, each is found with its own. -/
theorem lookup_of_mapM [BEq α] [LawfulBEq α] {as : List α} {es : List (α × β)}
    (h : (as.mapM fun a => do return (a, ← f a)) = some es) {a : α} (ha : a ∈ as) :
    ∃ b, f a = some b ∧ es.lookup a = some b := by
  induction as generalizing es with
  | nil => cases ha
  | cons a' as ih =>
    simp only [List.mapM_cons, Option.bind_eq_bind, Option.bind_eq_some_iff, Option.pure_def,
      Option.some.injEq] at h
    obtain ⟨_, ⟨b, hb, rfl⟩, es, hes, rfl⟩ := h
    rw [List.lookup_cons]
    cases heq : a == a' with
    | true => exact ⟨b, eq_of_beq heq ▸ hb, rfl⟩
    | false => exact ih hes ((List.mem_cons.1 ha).resolve_left (ne_of_beq_false heq))

end MapM

/-! ## Plain data -/

namespace Data

/-- Data with at most `depth` levels of lists and records, with the members of records in order. -/
inductive Held : ℕ → Data → Prop
  | null (depth : ℕ) : Held depth .null
  | bool (depth : ℕ) (b : Bool) : Held depth (.bool b)
  | number (depth : ℕ) (n : Number) : Held depth (.number n)
  | text (depth : ℕ) (s : String) : Held depth (.text s)
  | list {depth : ℕ} {ds : List Data} (h : ∀ d ∈ ds, Held depth d) : Held (depth + 1) (.list ds)
  | record {depth : ℕ} {ms : List (String × Data)} (horder : InOrder ms)
    (h : ∀ m ∈ ms, Held depth m.2) : Held (depth + 1) (.record ms)

theorem sortedItems_eq (ds : List Data) : sortedItems ds = ds.map sorted := by
  induction ds with
  | nil => rfl
  | cons d ds ih => rw [sortedItems, ih, List.map_cons]

theorem sortedValues_eq (ms : List (String × Data)) :
    sortedValues ms = ms.map fun m => (m.1, m.2.sorted) := by
  induction ms with
  | nil => rfl
  | cons m ms ih => rw [sortedValues, ih, List.map_cons]

mutual

/-- Data in order has no other numbers. -/
theorem numbers_sorted_subset : ∀ d : Data, d.sorted.numbers ⊆ d.numbers
  | .null | .bool _ | .number _ | .text _ => List.Subset.refl _
  | .list ds => fun n hn => by
    rw [sorted, sortedItems_eq] at hn
    obtain ⟨_, hmem, hn⟩ := mem_numbers_list.1 hn
    obtain ⟨d, hd, rfl⟩ := List.mem_map.1 hmem
    exact mem_numbers_list.2 ⟨d, hd, numbers_sortedItems_subset ds d hd hn⟩
  | .record ms => fun n hn => by
    rw [sorted, sortedValues_eq] at hn
    obtain ⟨_, hmem, hn⟩ := mem_numbers_record.1 hn
    obtain ⟨m, hm, rfl⟩ := List.mem_map.1 (mem_of_mem_sortedMembers hmem)
    exact mem_numbers_record.2 ⟨m, hm, numbers_sortedValues_subset ms m hm hn⟩

theorem numbers_sortedItems_subset : ∀ ds : List Data, ∀ d ∈ ds, d.sorted.numbers ⊆ d.numbers
  | [] => List.forall_mem_nil _
  | d :: ds =>
    List.forall_mem_cons.2 ⟨numbers_sorted_subset d, numbers_sortedItems_subset ds⟩

theorem numbers_sortedValues_subset : ∀ ms : List (String × Data),
    ∀ m ∈ ms, m.2.sorted.numbers ⊆ m.2.numbers
  | [] => List.forall_mem_nil _
  | (_, d) :: ms =>
    List.forall_mem_cons.2 ⟨numbers_sorted_subset d, numbers_sortedValues_subset ms⟩

end

end Data

namespace Json

open Data

mutual

/-- What is read as data is held once it is in order. -/
theorem held_of_toData? : ∀ {depth : ℕ} (t : Tree) {d : Data}, t.toData? depth = some d →
    d.sorted.Held depth
  | depth, .null, _, h => by
    cases h
    exact .null depth
  | depth, .bool b, _, h => by
    cases h
    exact .bool depth b
  | depth, .number n, _, h => by
    obtain ⟨m, rfl, rfl⟩ := Option.map_eq_some_iff.1 h
    exact .number depth m
  | depth, .text s, _, h => by
    obtain ⟨r, rfl, rfl⟩ := Option.map_eq_some_iff.1 h
    exact .text depth r
  | 0, .list ts, _, h => by cases h
  | depth + 1, .list ts, _, h => by
    obtain ⟨ds, hds, rfl⟩ := Option.map_eq_some_iff.1 h
    rw [sorted, sortedItems_eq]
    exact .list (List.forall_mem_map.2 (held_of_dataItems? ts hds))
  | 0, .record ms, _, h => by cases h
  | depth + 1, .record ms, _, h => by
    obtain ⟨es, hes, rfl⟩ := Option.map_eq_some_iff.1 h
    rw [sorted, sortedValues_eq]
    refine .record (inOrder_sortedMembers _) fun e he => ?_
    obtain ⟨e', he', rfl⟩ := List.mem_map.1 (mem_of_mem_sortedMembers he)
    exact held_of_dataMembers? ms hes e' he'

theorem held_of_dataItems? : ∀ {depth : ℕ} (ts : List Tree) {ds : List Data},
    dataItems? depth ts = some ds → ∀ d ∈ ds, d.sorted.Held depth
  | _, [], _, h => by
    cases h
    exact List.forall_mem_nil _
  | depth, t :: ts, _, h => by
    unfold dataItems? at h
    split at h
    · rename_i d ds hd hds
      cases h
      exact List.forall_mem_cons.2 ⟨held_of_toData? t hd, held_of_dataItems? ts hds⟩
    · cases h

theorem held_of_dataMembers? : ∀ {depth : ℕ} (ms : List (Option String × Tree))
    {es : List (String × Data)}, dataMembers? depth ms = some es → ∀ e ∈ es, e.2.sorted.Held depth
  | _, [], _, h => by
    cases h
    exact List.forall_mem_nil _
  | depth, (name, t) :: ms, _, h => by
    unfold dataMembers? at h
    split at h
    · rename_i d es hd hes
      cases h
      exact List.forall_mem_cons.2 ⟨held_of_toData? t hd, held_of_dataMembers? ms hes⟩
    · cases h

end

end Json

namespace Data

open Json

/-- Data that is held is read from the tree that shows it, and is in order already. -/
theorem Held.toData?_toTree {depth : ℕ} {d : Data} (h : d.Held depth) :
    d.toTree.toData? depth = some d ∧ d.sorted = d := by
  induction h with
  | @list depth ds _ ih =>
    have hitems : dataItems? depth (itemsTree ds) = some ds := by
      clear * - ih
      induction ds with
      | nil => rfl
      | cons d ds ihds =>
        obtain ⟨hd, hds⟩ := List.forall_mem_cons.1 ih
        simp only [itemsTree, dataItems?, hd.1, ihds hds]
    refine ⟨by simp [toTree, Tree.toData?, hitems], ?_⟩
    rw [sorted, sortedItems_eq, List.map_congr_left fun d hd => (ih d hd).2, List.map_id']
  | @record depth ms horder _ ih =>
    have hmembers : dataMembers? depth (membersTree ms) = some ms := by
      clear * - ih
      induction ms with
      | nil => rfl
      | cons m ms ihms =>
        obtain ⟨hm, hms⟩ := List.forall_mem_cons.1 ih
        simp only [membersTree, dataMembers?, hm.1, ihms hms]
    refine ⟨by simp [toTree, Tree.toData?, hmembers], ?_⟩
    have hvalues : sortedValues ms = ms := by
      rw [sortedValues_eq, List.map_congr_left fun m hm => by rw [(ih m hm).2], List.map_id']
    rw [sorted, hvalues, sortedMembers_of_inOrder horder]
  | _ => exact ⟨rfl, rfl⟩

end Data

/-! ## Reading again -/

namespace Json.Typed

open Data

variable {α : Type}

/-- What is read is read again from what is written for it. That has no numbers but those that are
read, and is null for null only. -/
structure Rereads (read : Tree → Option α) (write : α → Data) : Prop where
  again : ∀ {t : Tree} {a : α}, read t = some a →
    read (write a).toTree = some a ∧ (write a).numbers ⊆ t.numbers
  notNull : ∀ {t : Tree} {a : α}, read t = some a → t ≠ .null → write a ≠ .null

section Readers

variable {depth : ℕ}

theorem rereads_text : Rereads (text depth) .text where
  again _ := ⟨rfl, List.nil_subset _⟩
  notNull _ _ := nofun

theorem rereads_bool : Rereads (bool depth) .bool where
  again _ := ⟨rfl, List.nil_subset _⟩
  notNull _ _ := nofun

theorem rereads_none {write : α → Data} : Rereads (fun _ => none) write :=
  ⟨nofun, nofun⟩

theorem rereads_data : Rereads (data depth) fun d => d where
  again {t a} h := by
    obtain ⟨d, hd, rfl⟩ := Option.map_eq_some_iff.1 h
    obtain ⟨hread, hsorted⟩ := (held_of_toData? t hd).toData?_toTree
    rw [data, hread, Option.map_some, hsorted, eq_toTree_of_toData? t hd]
    exact ⟨rfl, numbers_sorted_subset d⟩
  notNull {t a} h hne hnull := by
    obtain ⟨d, hd, rfl⟩ := Option.map_eq_some_iff.1 h
    have hd' : d = .null := by
      cases d with
      | null => rfl
      | _ => cases hnull
    rw [eq_toTree_of_toData? t hd, hd'] at hne
    exact hne rfl

variable {f : Typed α} {write : α → Data}

theorem rereads_list (h : ∀ d, d + 1 = depth → Rereads (f d) write) :
    Rereads (list f depth) fun as => .list (as.map write) where
  again {t as} hread := by
    unfold list at hread
    split at hread
    · rename_i depth ts
      refine ⟨?_, fun n hn => ?_⟩
      · rw [toTree, itemsTree_eq, List.map_map]
        refine mapM_map_of_forall fun a ha => ?_
        obtain ⟨t, -, ht⟩ := exists_of_mem_mapM hread ha
        exact ((h depth rfl).again ht).1
      · obtain ⟨_, hmem, hn⟩ := mem_numbers_list.1 hn
        obtain ⟨a, ha, rfl⟩ := List.mem_map.1 hmem
        obtain ⟨t, hts, ht⟩ := exists_of_mem_mapM hread ha
        exact Tree.mem_numbers_list.2 ⟨t, hts, ((h depth rfl).again ht).2 hn⟩
    · cases hread
  notNull _ _ := nofun

theorem rereads_record (h : ∀ d, d + 1 = depth → Rereads (f d) write) :
    Rereads (record f depth) fun ms => .record (ms.map fun m => (m.1, write m.2)) where
  again {t as} hread := by
    unfold record at hread
    split at hread
    · rename_i depth ts
      obtain ⟨ms, hms, rfl⟩ := Option.map_eq_some_iff.1 hread
      have hmember : ∀ m ∈ sortedMembers ms, ∃ t ∈ ts, f depth t.2 = some m.2 := fun m hm => by
        obtain ⟨t, ht, hm⟩ := exists_of_mem_mapM hms (mem_of_mem_sortedMembers hm)
        simp only [Option.bind_eq_bind, Option.bind_eq_some_iff, Option.pure_def,
          Option.some.injEq] at hm
        obtain ⟨name, -, a, ha, rfl⟩ := hm
        exact ⟨t, ht, ha⟩
      have hagain : ((sortedMembers ms).map fun m => (some m.1, (write m.2).toTree)).mapM
          (fun m => do return (← m.1, ← f depth m.2)) = some (sortedMembers ms) := by
        refine mapM_map_of_forall fun m hm => ?_
        obtain ⟨t, -, ht⟩ := hmember m hm
        simp [((h depth rfl).again ht).1]
      refine ⟨?_, fun n hn => ?_⟩
      · rw [toTree, membersTree_eq, List.map_map, record]
        refine (congrArg _ hagain).trans ?_
        rw [Option.map_some, sortedMembers_of_inOrder (inOrder_sortedMembers ms)]
      · obtain ⟨_, hmem, hn⟩ := mem_numbers_record.1 hn
        obtain ⟨m, hm, rfl⟩ := List.mem_map.1 hmem
        obtain ⟨t, hts, ht⟩ := hmember m hm
        exact Tree.mem_numbers_record.2 ⟨t, hts, ((h depth rfl).again ht).2 hn⟩
    · cases hread
  notNull _ _ := nofun

end Readers

/-! ## Fields -/

/-- A record with the members that have a value. -/
def ofSlots (slots : List (String × Option Data)) : Data :=
  .record (slots.flatMap fun s => member? s.1 s.2)

section Slots

variable {slots : List (String × Option Data)}

theorem member?_names (name : String) (v : Option Data) :
    List.Sublist ((member? name v).map Prod.fst) [name] := by
  cases v with
  | none => exact List.nil_sublist _
  | some d => exact List.Sublist.refl _

theorem names_ofSlots_sublist (slots : List (String × Option Data)) :
    List.Sublist ((slots.flatMap fun s => member? s.1 s.2).map Prod.fst) (slots.map Prod.fst) := by
  induction slots with
  | nil => exact List.Sublist.refl _
  | cons s slots ih =>
    rw [List.flatMap_cons, List.map_append, List.map_cons]
    exact (member?_names s.1 s.2).append ih

/-- A member is found by its name if it has a value. -/
theorem lookup_ofSlots (h : (slots.map Prod.fst).Nodup) (name : String) :
    (slots.flatMap fun s => member? s.1 s.2).lookup name = (slots.lookup name).join := by
  induction slots with
  | nil => rfl
  | cons s slots ih =>
    obtain ⟨n, v⟩ := s
    obtain ⟨hn, hslots⟩ := List.nodup_cons.1 h
    rw [List.flatMap_cons, List.lookup_append, ih hslots, lookup_cons_eq]
    split_ifs with hname
    · have hnone : slots.lookup name = none := List.lookup_eq_none_iff.2 fun s hs => by
        refine bne_iff_ne.2 fun he => hn (List.mem_map.2 ⟨s, hs, ?_⟩)
        exact he.symm.trans hname
      rw [hnone]
      cases v with
      | none => rfl
      | some d => simp [member?, hname]
    · have hnone : (member? n v).lookup name = none := by
        cases v with
        | none => rfl
        | some d => rw [member?, lookup_cons_eq, if_neg hname, List.lookup_nil]
      rw [hnone, Option.none_or]

theorem lookup_map_toTree (ms : List (String × Data)) (name : String) :
    (ms.map fun m => (m.1, m.2.toTree)).lookup name = (ms.lookup name).map toTree := by
  induction ms with
  | nil => rfl
  | cons m ms ih =>
    rw [List.map_cons, lookup_cons_eq, lookup_cons_eq, ih]
    split_ifs <;> rfl

/-- The fields of such a record are the members, if no two have one name. -/
theorem fields_ofSlots (h : (slots.map Prod.fst).Nodup) :
    ∃ fs, (∀ names, fields names (ofSlots slots).toTree = some fs) ∧
      ∀ name, fs.lookup name = ((slots.lookup name).join).map toTree := by
  let ms := slots.flatMap fun s => member? s.1 s.2
  have hnodup : (ms.map Prod.fst).Nodup := h.sublist (names_ofSlots_sublist slots)
  have hread : (membersTree ms).mapM (fun m => m.1.map (·, m.2)) =
      some (ms.map fun m => (m.1, m.2.toTree)) := by
    have hms : membersTree ms =
        (ms.map fun m => (m.1, m.2.toTree)).map fun m => (some m.1, m.2) := by
      rw [membersTree_eq, List.map_map]
      rfl
    rw [hms]
    exact mapM_map_of_forall fun m _ => rfl
  have honce : ∀ n, ((ms.map fun m => (m.1, m.2.toTree)).filter fun m => m.1 == n).length ≤ 1 := by
    intro n
    have hcount := List.nodup_iff_count_le_one.1 hnodup n
    rw [List.count_eq_countP, List.countP_map] at hcount
    rw [← List.countP_eq_length_filter, List.countP_map]
    exact hcount
  refine ⟨ms.map fun m => (m.1, m.2.toTree), fun names => ?_, fun name => ?_⟩
  · rw [ofSlots, toTree, fields, Option.bind_eq_bind, hread, Option.bind_some, if_pos]
    exact List.all_eq_true.2 fun n _ => decide_eq_true (honce n)
  · rw [lookup_map_toTree, lookup_ofSlots h]

end Slots

section Field

variable {f : Typed α} {names : List String} {t t' : Tree} {fs fs' : Fields} {depth : ℕ}
  {name : String} {otherwise a : α} {write : α → Data}

/-- The fields have no numbers but those of the whole. -/
theorem numbers_of_lookup (hfs : fields names t = some fs) (h : fs.lookup name = some t') :
    t'.numbers ⊆ t.numbers := by
  obtain ⟨_, _, hmem, -⟩ := List.lookup_eq_some_iff.1 h
  have hmem : (name, t') ∈ fs := hmem ▸ List.mem_append_right _ List.mem_cons_self
  unfold fields at hfs
  split at hfs
  · obtain ⟨ms, hms, hfs⟩ := Option.bind_eq_some_iff.1 hfs
    split_ifs at hfs
    cases hfs
    obtain ⟨m, hm, hmap⟩ := exists_of_mem_mapM hms hmem
    obtain ⟨_, -, heq⟩ := Option.map_eq_some_iff.1 hmap
    exact fun n hn => Tree.mem_numbers_record.2 ⟨m, hm, (Prod.mk.inj heq).2 ▸ hn⟩
  · split_ifs at hfs
    cases hfs
    exact fun n hn => Tree.mem_numbers_list.2 ⟨t', (List.of_mem_zip hmem).2, hn⟩
  · cases hfs

/-- A record has the numbers of its members. -/
theorem numbers_ofSlots {ns : List Number} {slots : List (String × Option Data)}
    (h : ∀ s ∈ slots, ∀ d ∈ s.2, d.numbers ⊆ ns) : (ofSlots slots).numbers ⊆ ns := by
  intro n hn
  obtain ⟨m, hm, hn⟩ := mem_numbers_record.1 hn
  obtain ⟨⟨name, v⟩, hs, hm⟩ := List.mem_flatMap.1 hm
  cases v with
  | none => cases hm
  | some d =>
    rw [List.mem_singleton.1 hm] at hn
    exact h _ hs d rfl hn

/-- What a field holds is read again from the member for it, and so is what stands for a missing
field if there is a member for that. There is none only where the field may be missing. -/
structure Kept (read : Tree → Option α) (otherwise : α) (put : α → Option Data) : Prop where
  again : ∀ {t : Tree} {a : α} {d : Data}, read t = some a → put a = some d →
    read d.toTree = some a ∧ d.numbers ⊆ t.numbers
  missing : ∀ {d : Data}, put otherwise = some d →
    read d.toTree = some otherwise ∧ d.numbers = []
  absent : ∀ {a : α}, put a = none → a = otherwise

theorem field_again {put : α → Option Data} (hfs : fields names t = some fs)
    (h : Kept (f depth) otherwise put) (hread : field fs depth name otherwise f = some a)
    (hput : fs'.lookup name = (put a).map toTree) :
    field fs' depth name otherwise f = some a ∧ ∀ d ∈ put a, d.numbers ⊆ t.numbers := by
  have hmember : ∀ d ∈ put a, f depth d.toTree = some a ∧ d.numbers ⊆ t.numbers := fun d hd => by
    unfold field at hread
    split at hread
    · rename_i t' hlookup
      obtain ⟨hagain, hnumbers⟩ := h.again hread hd
      exact ⟨hagain, List.Subset.trans hnumbers (numbers_of_lookup hfs hlookup)⟩
    · cases hread
      obtain ⟨hagain, hnumbers⟩ := h.missing hd
      exact ⟨hagain, hnumbers ▸ List.nil_subset _⟩
  refine ⟨?_, fun d hd => (hmember d hd).2⟩
  rw [field, hput]
  cases hd : put a with
  | none => rw [h.absent hd]; rfl
  | some d => exact (hmember d hd).1

theorem required_again (hfs : fields names t = some fs) (h : Rereads (f depth) write)
    (hread : required fs depth name f = some a)
    (hput : fs'.lookup name = some (write a).toTree) :
    required fs' depth name f = some a ∧ ∀ d ∈ some (write a), d.numbers ⊆ t.numbers := by
  obtain ⟨t', hlookup, ht⟩ := Option.bind_eq_some_iff.1 hread
  obtain ⟨hagain, hnumbers⟩ := h.again ht
  rw [required, hput, Option.bind_some, hagain]
  refine ⟨rfl, ?_⟩
  rintro _ ⟨⟩
  exact List.Subset.trans hnumbers (numbers_of_lookup hfs hlookup)

/-- A field that is always written. -/
theorem kept_always {read : Tree → Option α} (h : Rereads read write)
    (hotherwise : read (write otherwise).toTree = some otherwise ∧ (write otherwise).numbers = []) :
    Kept read otherwise fun a => some (write a) where
  again ht hd := by
    cases hd
    exact h.again ht
  missing hd := by
    cases hd
    exact hotherwise
  absent := nofun

/-- A field that is written if it has a value. -/
theorem kept_optional (h : Rereads (f depth) write) :
    Kept (optional f depth) none fun o => o.map write where
  again {t o d} ht hd := by
    obtain ⟨a, rfl, rfl⟩ := Option.map_eq_some_iff.1 hd
    unfold optional at ht
    split at ht
    · cases ht
    · rename_i hne
      obtain ⟨b, hb, hba⟩ := Option.map_eq_some_iff.1 ht
      cases hba
      have hnull : (write a).toTree ≠ .null :=
        mt toTree_eq_null_iff.1 (h.notNull hb hne)
      obtain ⟨hagain, hnumbers⟩ := h.again hb
      refine ⟨?_, hnumbers⟩
      unfold optional
      split
      · rename_i htree
        exact absurd htree hnull
      · rw [hagain, Option.map_some]
  missing := nofun
  absent {o} ho := by
    cases o with
    | none => rfl
    | some a => cases ho

/-- A field that is written if it is not empty. -/
theorem kept_nonempty {read : Tree → Option (List α)} {write : List α → Data}
    (h : Rereads read write) :
    Kept read [] fun as => if as.isEmpty then none else some (write as) where
  again ht hd := by
    split_ifs at hd
    cases hd
    exact h.again ht
  missing := nofun
  absent {as} hd := by
    split_ifs at hd with hempty
    exact List.isEmpty_iff.1 hempty

end Field

end Json.Typed

end Atlas
