import Atlas.Proofs.Identifiers

/-!
# Things that have the identifiers of their keys

A key that has an identifier keeps it through all further calls (`Continues.idOf_eq`), and two such
keys have one identifier just if they are equal (`Reached.idOf_eq_iff`). So things that are drawn
one after another, each with the identifier that its key gets, have in the end the identifiers of
their keys (`Names`).
-/

set_option linter.unusedSectionVars false

namespace Atlas.Identifiers

variable {ids ids' ids'' : Identifiers} {key key' : String}

/-- The key has an identifier. -/
def Knows (ids : Identifiers) (key : String) : Prop :=
  (ids.lookup? key).isSome

/-- The identifier of a key. -/
def idOf (ids : Identifiers) (key : String) : String :=
  (ids.lookup? key).getD ""

theorem Knows.lookup?_eq (h : ids.Knows key) : ids.lookup? key = some (ids.idOf key) :=
  Option.eq_some_iff_get_eq.2 ⟨h, Option.get_eq_getD ..⟩

theorem knows_of_lookup? {id : String} (h : ids.lookup? key = some id) :
    ids.Knows key ∧ ids.idOf key = id := by
  rw [Knows, idOf, h]
  exact ⟨rfl, rfl⟩

theorem knows_idFor (ids : Identifiers) (key name : String) :
    (ids.idFor key name).2.Knows key ∧
      (ids.idFor key name).2.idOf key = (ids.idFor key name).1 :=
  knows_of_lookup? (lookup?_idFor ids key name)

theorem Reached.idOf_eq_iff (h : Reached ids) (hk : ids.Knows key) (hk' : ids.Knows key') :
    ids.idOf key = ids.idOf key' ↔ key = key' := by
  refine ⟨fun he => h.key_inj hk.lookup?_eq ?_, fun he => he ▸ rfl⟩
  rw [hk'.lookup?_eq, he]

namespace Continues

theorem knows (h : Continues ids ids') (hk : ids.Knows key) : ids'.Knows key :=
  (knows_of_lookup? (h.kept hk.lookup?_eq)).1

theorem idOf_eq (h : Continues ids ids') (hk : ids.Knows key) : ids'.idOf key = ids.idOf key :=
  (knows_of_lookup? (h.kept hk.lookup?_eq)).2

end Continues

/-- A new identifier is that of no key. -/
theorem Reached.fresh (h : Reached ids) (name : String) :
    Continues ids (ids.fresh name).2 ∧ ∀ key, ids.Knows key → ids.idOf key ≠ (ids.fresh name).1 := by
  obtain ⟨log, h⟩ := h
  have hcall := h.answer (.fresh name)
  refine ⟨⟨⟨_, hcall⟩, fun hid => hid⟩, fun key hk he => ?_⟩
  obtain ⟨e, he', -, hid⟩ := h.exists_of_lookup? hk.lookup?_eq
  have hasked := h.asked e he'
  rw [hid, he] at hasked
  exact hasked (allocates_fresh ids name).count_eq_zero

/-- What is drawn for those things whose keys are known. -/
theorem filterMap_lookup? {α β : Type} (ids : Identifiers) (keyOf : α → String)
    (draw : α → String → β) {p : α → Bool} {as : List α}
    (hp : ∀ a ∈ as, p a = true ↔ ids.Knows (keyOf a)) :
    as.filterMap (fun a => (ids.lookup? (keyOf a)).map (draw a)) =
      (as.filter p).map fun a => draw a (ids.idOf (keyOf a)) := by
  induction as with
  | nil => rfl
  | cons a as ih =>
    obtain ⟨ha, has⟩ := List.forall_mem_cons.1 hp
    rw [List.filterMap_cons, ih has]
    cases hpa : p a with
    | true => rw [(ha.1 hpa).lookup?_eq, Option.map_some, List.filter_cons_of_pos hpa, List.map_cons]
    | false =>
      have hnone : ids.lookup? (keyOf a) = none :=
        Option.not_isSome_iff_eq_none.1 (ha.not.1 (by simp [hpa]))
      rw [hnone, Option.map_none, List.filter_cons_of_neg (by simp [hpa])]

/-! ## Drawing one thing after another -/

section Names

variable {α β : Type}

/-- Each thing is drawn with the identifier of its key, which was asked for between `ids` and
`ids'` at the latest. -/
structure Names (ids ids' : Identifiers) (key : α → String) (draw : α → String → β) (as : List α)
    (bs : List β) : Prop where
  continues : Continues ids ids'
  knows : ∀ a ∈ as, ids'.Knows (key a)
  eq_map : bs = as.map fun a => draw a (ids'.idOf (key a))

variable {keyOf : α → String} {draw : α → String → β} {as : List α} {bs : List β}

namespace Names

theorem nil (h : Reached ids) : Names ids ids keyOf draw [] [] :=
  ⟨.refl h, List.forall_mem_nil _, rfl⟩

/-- Further calls change no identifier. -/
theorem trans (h : Names ids ids' keyOf draw as bs) (h' : Continues ids' ids'') :
    Names ids ids'' keyOf draw as bs := by
  refine ⟨h.continues.trans h', fun a ha => h'.knows (h.knows a ha), ?_⟩
  rw [h.eq_map]
  exact List.map_congr_left fun a ha => by rw [h'.idOf_eq (h.knows a ha)]

theorem cons (h : Reached ids) {a : α} {base : String}
    (has : Names (ids.idFor (keyOf a) base).2 ids' keyOf draw as bs) :
    Names ids ids' keyOf draw (a :: as) (draw a (ids.idFor (keyOf a) base).1 :: bs) := by
  obtain ⟨hk, hid⟩ := knows_idFor ids (keyOf a) base
  have hcall := (h.idFor (keyOf a) base).2
  refine ⟨hcall.trans has.continues,
    List.forall_mem_cons.2 ⟨has.continues.knows hk, has.knows⟩, ?_⟩
  rw [List.map_cons, has.continues.idOf_eq hk, hid, ← has.eq_map]

theorem concat (h : Names ids ids' keyOf draw as bs) (a : α) (base : String) :
    Names ids (ids'.idFor (keyOf a) base).2 keyOf draw (as ++ [a])
      (bs ++ [draw a (ids'.idFor (keyOf a) base).1]) := by
  obtain ⟨hk, hid⟩ := knows_idFor ids' (keyOf a) base
  have has := h.trans (h.continues.reached.idFor (keyOf a) base).2
  refine ⟨has.continues, List.forall_mem_append.2 ⟨has.knows, List.forall_mem_singleton.2 hk⟩, ?_⟩
  rw [List.map_append, List.map_singleton, hid, ← has.eq_map]

theorem append {cs : List α} {ds : List β} (h : Names ids ids' keyOf draw as bs)
    (h' : Names ids' ids'' keyOf draw cs ds) :
    Names ids ids'' keyOf draw (as ++ cs) (bs ++ ds) := by
  have has := h.trans h'.continues
  refine ⟨has.continues, List.forall_mem_append.2 ⟨has.knows, h'.knows⟩, ?_⟩
  rw [List.map_append, ← has.eq_map, ← h'.eq_map]

/-- What is drawn for things that are made of others. -/
theorem map {γ : Type} {f : γ → α} {cs : List γ}
    (h : Names ids ids' (fun c => keyOf (f c)) (fun c => draw (f c)) cs bs) :
    Names ids ids' keyOf draw (cs.map f) bs := by
  refine ⟨h.continues, List.forall_mem_map.2 h.knows, ?_⟩
  rw [h.eq_map, List.map_map]
  rfl

end Names

theorem names_foldl (h : Reached ids) (keyOf base : α → String) (draw : α → String → β)
    (as : List α) {r : List β × Identifiers}
    (hr : r = as.foldl (fun (bs, ids) a =>
      let (id, ids) := ids.idFor (keyOf a) (base a)
      (bs ++ [draw a id], ids)) ([], ids)) :
    Names ids r.2 keyOf draw as r.1 := by
  subst hr
  induction as using List.reverseRecOn with
  | nil => exact .nil h
  | append_singleton as a ih =>
    rw [List.foldl_append, List.foldl_cons, List.foldl_nil]
    exact ih.concat a (base a)

end Names

/-! ## Joining two things -/

section Joins

variable {α β γ : Type}

/-- Each thing is drawn with the identifiers of its two keys, both asked for by the time of `ids'`. -/
structure Joins (ids ids' : Identifiers) (source target : α → String)
    (draw : α → String → String → β) (as : List α) (bs : List β) : Prop where
  continues : Continues ids ids'
  knows : ∀ a ∈ as, ids'.Knows (source a) ∧ ids'.Knows (target a)
  eq_map : bs = as.map fun a => draw a (ids'.idOf (source a)) (ids'.idOf (target a))

namespace Joins

variable {source target : α → String} {draw : α → String → String → β} {as as' : List α}
  {bs bs' : List β}

theorem nil (h : Reached ids) : Joins ids ids source target draw [] [] :=
  ⟨.refl h, List.forall_mem_nil _, rfl⟩

theorem trans (h : Joins ids ids' source target draw as bs) (h' : Continues ids' ids'') :
    Joins ids ids'' source target draw as bs := by
  refine ⟨h.continues.trans h', fun a ha => (h.knows a ha).imp h'.knows h'.knows, ?_⟩
  rw [h.eq_map]
  exact List.map_congr_left fun a ha => by
    rw [h'.idOf_eq (h.knows a ha).1, h'.idOf_eq (h.knows a ha).2]

theorem append (h : Joins ids ids' source target draw as bs)
    (h' : Joins ids' ids'' source target draw as' bs') :
    Joins ids ids'' source target draw (as ++ as') (bs ++ bs') := by
  have has := h.trans h'.continues
  refine ⟨has.continues, List.forall_mem_append.2 ⟨has.knows, h'.knows⟩, ?_⟩
  rw [List.map_append, ← has.eq_map, ← h'.eq_map]

/-- Things of one thing that has its identifier before them. -/
theorem of_names {c : γ} {items : List α} {source : γ → String} {target : α → String}
    {draw : γ × α → String → String → β} (hc : ids.Knows (source c))
    (h : Names ids ids' target (fun a => draw (c, a) (ids.idOf (source c))) items bs) :
    Joins ids ids' (fun p => source p.1) (fun p => target p.2) draw (items.map (c, ·)) bs := by
  refine ⟨h.continues, List.forall_mem_map.2 fun a ha => ⟨h.continues.knows hc, h.knows a ha⟩, ?_⟩
  rw [h.eq_map, List.map_map]
  exact List.map_congr_left fun a _ => by rw [Function.comp_apply, h.continues.idOf_eq hc]

end Joins

/-- What is drawn behind other things is what is drawn by itself. -/
theorem foldl_drawn_eq (keyOf base : α → String) (draw : α → String → β) (as : List α)
    (bs : List β) (ids : Identifiers) :
    as.foldl (fun (bs, ids) a =>
      let (id, ids) := ids.idFor (keyOf a) (base a)
      (bs ++ [draw a id], ids)) (bs, ids) =
    (as.foldl (fun (bs, ids) a =>
      let (id, ids) := ids.idFor (keyOf a) (base a)
      (bs ++ [draw a id], ids)) ([], ids)).map (bs ++ ·) id := by
  induction as using List.reverseRecOn with
  | nil => simp
  | append_singleton as a ih =>
    rw [List.foldl_append, List.foldl_append, ih]
    simp only [List.foldl_cons, List.foldl_nil, Prod.map_fst, Prod.map_snd, id_eq, Prod.map_apply,
      List.append_assoc]

/-- Every thing asks for its own identifier and then, for each of its items, for that of the item. -/
theorem joins_foldl (h : Reached ids) (source base : γ → String) (items : γ → List α)
    (target base' : α → String) (draw : γ × α → String → String → β) (cs : List γ)
    {r : List β × Identifiers}
    (hr : r = cs.foldl (fun (bs, ids) c =>
      let (id, ids) := ids.idFor (source c) (base c)
      (items c).foldl (fun (bs, ids) a =>
        let (id', ids) := ids.idFor (target a) (base' a)
        (bs ++ [draw (c, a) id id'], ids)) (bs, ids)) ([], ids)) :
    Joins ids r.2 (fun p => source p.1) (fun p => target p.2) draw
      (cs.flatMap fun c => (items c).map (c, ·)) r.1 := by
  subst hr
  induction cs using List.reverseRecOn with
  | nil => exact .nil h
  | append_singleton cs c ih =>
    rw [List.foldl_append, List.foldl_cons, List.foldl_nil, List.flatMap_append,
      List.flatMap_singleton]
    generalize cs.foldl _ _ = before at ih ⊢
    obtain ⟨bs, ids'⟩ := before
    have hsource := (ih.continues.reached.idFor (source c) (base c)).2
    obtain ⟨hk, hid⟩ := knows_idFor ids' (source c) (base c)
    have hitems := names_foldl hsource.reached target base'
      (fun a => draw (c, a) (ids'.idFor (source c) (base c)).1) (items c) rfl
    rw [← hid] at hitems
    dsimp only
    rw [foldl_drawn_eq, ← hid]
    exact (ih.trans hsource).append (.of_names hk hitems)

end Joins

end Atlas.Identifiers
