import Atlas.Proofs.Identifiers.Keys

/-!
# Identifiers by the log of their calls

Whatever is drawn asks for identifiers in some order. `Logs ids log ids'` says that the calls of the
log lead from `ids` to `ids'`, each with the answer that the log has for it; logs of things drawn one
after another are put together (`Logs.append`). The log of all calls decides what is known in the
end : just the keys that calls were for (`Records.knows_iff`). The answers of a log are as different
as its keys (`Records.nodup_iff`), and the answer of a call without a key is the identifier of
nothing else (`Records.idOf_ne`). Every answer is made of the name that a call for its key asked with
(`Logs.made`).
-/

set_option linter.unusedSectionVars false

namespace Atlas.Identifiers

/-- Calls with their answers, in order. -/
abbrev Log := List (Call × String)

namespace Log

/-- The keys that calls are for. -/
def keys (log : Log) : List String :=
  log.filterMap (·.1.key?)

/-- The answers of the calls that are for no key. -/
def unkeyed (log : Log) : List String :=
  (log.filter (·.1.key? = none)).map Prod.snd

/-- The answers of all calls. -/
def answers (log : Log) : List String :=
  log.map Prod.snd

@[simp] theorem keys_append (log log' : Log) : keys (log ++ log') = keys log ++ keys log' :=
  List.filterMap_append

@[simp] theorem unkeyed_append (log log' : Log) :
    unkeyed (log ++ log') = unkeyed log ++ unkeyed log' := by
  rw [unkeyed, List.filter_append, List.map_append, unkeyed, unkeyed]

@[simp] theorem answers_append (log log' : Log) :
    answers (log ++ log') = answers log ++ answers log' :=
  List.map_append

end Log

/-- The calls of a log lead from some identifiers to others. -/
inductive Logs : Identifiers → Log → Identifiers → Prop
  | nil {ids} : Logs ids [] ids
  | cons {ids log ids'} (c : Call) (rest : Logs (ids.answer c).2 log ids') :
      Logs ids ((c, (ids.answer c).1) :: log) ids'

variable {ids ids' ids'' : Identifiers} {log log' : Log}

namespace Logs

theorem append (h : Logs ids log ids') (h' : Logs ids' log' ids'') :
    Logs ids (log ++ log') ids'' := by
  induction h with
  | nil => exact h'
  | cons c _ ih => exact .cons c (ih h')

theorem single (ids : Identifiers) (c : Call) : Logs ids [(c, (ids.answer c).1)] (ids.answer c).2 :=
  .cons c .nil

/-- The log goes on with the calls and their answers. -/
theorem records (h : Logs ids log ids') (h' : Records log' ids) : Records (log' ++ log) ids' := by
  induction h generalizing log' with
  | nil => rwa [List.append_nil]
  | cons c _ ih =>
    have hrest := ih (h'.answer c)
    rwa [List.append_assoc, List.singleton_append] at hrest

theorem records_empty (h : Logs empty log ids) : Records log ids := by
  simpa using h.records Records.empty

end Logs

/-- Things that are drawn one after another, each with the identifier of its key. -/
theorem logs_foldl {α β : Type} (ids : Identifiers) (keyOf base : α → String)
    (draw : α → String → β) (as : List α) {r : List β × Identifiers}
    (hr : r = as.foldl (fun (bs, ids) a =>
      let (id, ids) := ids.idFor (keyOf a) (base a)
      (bs ++ [draw a id], ids)) ([], ids)) :
    ∃ log, Logs ids log r.2 ∧ log.keys = as.map keyOf := by
  subst hr
  induction as using List.reverseRecOn with
  | nil => exact ⟨[], .nil, rfl⟩
  | append_singleton as a ih =>
    rw [List.foldl_append, List.foldl_cons, List.foldl_nil]
    obtain ⟨log, hlog, hkeys⟩ := ih
    refine ⟨_, hlog.append (.single _ (.idFor (keyOf a) (base a))), ?_⟩
    rw [Log.keys_append, hkeys, List.map_append]
    rfl

namespace Records

theorem reached (h : Records log ids) : Reached ids :=
  ⟨log, h⟩

/-- What is known in the end are the keys that calls were for. -/
theorem knows_iff (h : Records log ids) {key : String} : ids.Knows key ↔ key ∈ log.keys := by
  rw [Knows, h.byKey, Option.isSome_map, List.find?_isSome, Log.keys, List.mem_filterMap]
  exact exists_congr fun e => and_congr_right fun _ => decide_eq_true_iff

theorem isIdentifier_of_lookup? (h : Records log ids) {key id : String}
    (hk : ids.lookup? key = some id) : IsIdentifier id := by
  obtain ⟨e, he, -, hid⟩ := h.exists_of_lookup? hk
  exact hid ▸ h.form e he

theorem isIdentifier_idOf (h : Records log ids) {key : String} (hk : ids.Knows key) :
    IsIdentifier (ids.idOf key) :=
  h.isIdentifier_of_lookup? hk.lookup?_eq

/-- The answer of a call is the identifier of a key just if the call was for it. -/
theorem idOf_eq_iff (h : Records log ids) {e : Call × String} (he : e ∈ log) {key : String}
    (hk : ids.Knows key) : ids.idOf key = e.2 ↔ e.1.key? = some key := by
  obtain ⟨f, hf, hfk, hid⟩ := h.exists_of_lookup? hk.lookup?_eq
  rw [← hid, eq_comm, h.eq_iff_of_key? he hf hfk]

/-- The answers differ just if the keys do. -/
theorem nodup_iff (h : Records log ids) : log.answers.Nodup ↔ log.keys.Nodup := by
  simp only [Log.answers, Log.keys, List.Nodup, List.pairwise_map, List.pairwise_filterMap]
  constructor
  · intro hne
    refine (hne.and h.apart).imp ?_
    rintro e f ⟨hef, hiff⟩ key hkey _ hkey' rfl
    exact hef (hiff.2 ⟨key, hkey, hkey'⟩)
  · intro hne
    refine (hne.and h.apart).imp ?_
    rintro e f ⟨hef, hiff⟩ hid
    obtain ⟨key, hkey, hkey'⟩ := hiff.1 hid
    exact hef key hkey key hkey' rfl

theorem nodup_unkeyed (h : Records log ids) : log.unkeyed.Nodup := by
  rw [Log.unkeyed, List.Nodup, List.pairwise_map, List.pairwise_filter]
  refine h.apart.imp fun {e f} hiff he _ hid => ?_
  obtain ⟨key, hkey, -⟩ := hiff.1 hid
  rw [of_decide_eq_true he] at hkey
  cases hkey

/-- The answer of a call without a key is the identifier of no key. -/
theorem idOf_ne (h : Records log ids) {id : String} (hid : id ∈ log.unkeyed) {key : String}
    (hk : ids.Knows key) : ids.idOf key ≠ id := by
  obtain ⟨e, hmem, rfl⟩ := List.mem_map.1 hid
  obtain ⟨hmem, hnone⟩ := List.mem_filter.1 hmem
  rw [Ne, h.idOf_eq_iff hmem hk, of_decide_eq_true hnone]
  exact nofun

end Records

/-! ## What an answer is made of -/

/-- The name that a call asks with. -/
def Call.name : Call → String
  | .fresh name => name
  | .idFor _ name => name

/-- The name as an identifier, or that with a number. -/
def MadeOf (name id : String) : Prop :=
  id = Text.identifier name ∨ ∃ n, id = numbered (Text.identifier name) n

theorem madeOf_fresh (ids : Identifiers) (name : String) : MadeOf name (ids.fresh name).1 :=
  (allocates_fresh ids name).eq_or_eq_numbered

/-- Every answer is made of the name of a call for the same key, if not of that of its own call. -/
def Log.Made (log : Log) : Prop :=
  ∀ e ∈ log, ∃ f ∈ log, f.1.key? = e.1.key? ∧ MadeOf f.1.name e.2

theorem Log.Made.answer (hmade : log.Made) (h : Records log ids) (c : Call) :
    Log.Made (log ++ [(c, (ids.answer c).1)]) := by
  refine List.forall_mem_append.2 ⟨fun e he => ?_, List.forall_mem_singleton.2 ?_⟩
  · obtain ⟨f, hf, hkey, hid⟩ := hmade e he
    exact ⟨f, List.mem_append_left _ hf, hkey, hid⟩
  · have hown : MadeOf c.name (ids.answer c).1 → ∃ f ∈ log ++ [(c, (ids.answer c).1)],
        f.1.key? = c.key? ∧ MadeOf f.1.name (ids.answer c).1 := fun hid =>
      ⟨_, List.mem_append_right _ (List.mem_singleton_self _), rfl, hid⟩
    cases c with
    | fresh name => exact hown (madeOf_fresh ids name)
    | idFor key name =>
      cases hk : ids.lookup? key with
      | none =>
        refine hown ?_
        rw [Identifiers.answer, idFor_of_none hk]
        exact madeOf_fresh ids name
      | some id =>
        -- The answer is that of an earlier call, and made of what that is made of.
        obtain ⟨e, he, hkey, rfl⟩ := h.exists_of_lookup? hk
        obtain ⟨f, hf, hfk, hid⟩ := hmade e he
        refine ⟨f, List.mem_append_left _ hf, hfk.trans hkey, ?_⟩
        rwa [Identifiers.answer, idFor_of_some hk]

theorem Logs.made (h : Logs ids log ids') (h' : Records log' ids) (hmade : log'.Made) :
    Log.Made (log' ++ log) := by
  induction h generalizing log' with
  | nil => rwa [List.append_nil]
  | cons c _ ih =>
    have hrest := ih (h'.answer c) (hmade.answer h' c)
    rwa [List.append_assoc, List.singleton_append] at hrest

theorem Logs.made_empty (h : Logs empty log ids) : log.Made := by
  simpa using h.made Records.empty (List.forall_mem_nil _)

/-! ## Things that alone have identifiers -/

section Draws

variable {α β : Type}

/-- Each thing is drawn with the identifier of its key, and no other identifier is asked for. -/
structure Draws (ids ids' : Identifiers) (key : α → String) (draw : α → String → β) (as : List α)
    (bs : List β) : Prop where
  names : Names ids ids' key draw as bs
  logs : ∃ log, Logs ids log ids' ∧ log.keys = as.map key

variable {key : α → String} {draw : α → String → β} {as as' : List α} {bs bs' : List β}

namespace Draws

theorem append (h : Draws ids ids' key draw as bs) (h' : Draws ids' ids'' key draw as' bs') :
    Draws ids ids'' key draw (as ++ as') (bs ++ bs') := by
  obtain ⟨log, hlog, hkeys⟩ := h.logs
  obtain ⟨log', hlog', hkeys'⟩ := h'.logs
  refine ⟨h.names.append h'.names, log ++ log', hlog.append hlog', ?_⟩
  rw [Log.keys_append, hkeys, hkeys', List.map_append]

theorem map {γ : Type} {f : γ → α} {cs : List γ}
    (h : Draws ids ids' (fun c => key (f c)) (fun c => draw (f c)) cs bs) :
    Draws ids ids' key draw (cs.map f) bs := by
  obtain ⟨log, hlog, hkeys⟩ := h.logs
  refine ⟨.map h.names, log, hlog, ?_⟩
  rw [hkeys, List.map_map]
  rfl

/-- Just the keys of the things are known. -/
theorem knows_iff (h : Draws empty ids key draw as bs) {k : String} :
    ids.Knows k ↔ k ∈ as.map key := by
  obtain ⟨log, hlog, hkeys⟩ := h.logs
  rw [hlog.records_empty.knows_iff, hkeys]

end Draws

theorem draws_foldl (h : Reached ids) (keyOf base : α → String) (draw : α → String → β)
    (as : List α) {r : List β × Identifiers}
    (hr : r = as.foldl (fun (bs, ids) a =>
      let (id, ids) := ids.idFor (keyOf a) (base a)
      (bs ++ [draw a id], ids)) ([], ids)) :
    Draws ids r.2 keyOf draw as r.1 :=
  ⟨names_foldl h keyOf base draw as hr, logs_foldl ids keyOf base draw as hr⟩

end Draws

end Atlas.Identifiers
