import Atlas.Laravel.Rules
import Mathlib.Data.List.Nodup
import Mathlib.Data.List.TakeWhile

/-!
# References from the chains of columns

A migration gives a column its reference by a chain of calls : `references` and `on` name the column
and the table that it refers to, `onDelete` and `onUpdate` what happens to it. A call of the first
two starts a reference, and one of the others only adds to a reference that was started. Where no
call stands twice, a chain says for each of the four names what its one call says (`called?`), but
for the actions only if that call stands behind the first of `references` and `on`
(`referenceOfChain_eq`). So the order of the calls does not matter for table and column, and for the
actions only as far as it puts them in front of both (`reference_any_order`).
-/

set_option linter.unusedSectionVars false

namespace Atlas.Laravel

open Php

/-! ## Calls by their names -/

/-- The first argument of a call, without blanks and quotes around it. -/
def argumentOf (call : Call) : String :=
  trimItem ((Text.splitOn ',' call.arguments).headD "")

/-- The argument of the first call of a name. -/
def called? (name : String) (chain : List Call) : Option String :=
  (chain.find? (·.name = name)).map argumentOf

/-- The calls that start a reference. -/
def starting : List String :=
  ["references", "on"]

/-- The calls that add to a reference. -/
def actions : List String :=
  ["onDelete", "onUpdate"]

/-- The chain from its first call on that starts a reference. -/
def started (chain : List Call) : List Call :=
  chain.dropWhile (·.name ∉ starting)

theorem started_sublist (chain : List Call) : (started chain).Sublist chain :=
  List.dropWhile_sublist _

section Called

variable {name : String} {chain chain' : List Call}

theorem called?_cons (name : String) (call : Call) (chain : List Call) :
    called? name (call :: chain) =
      if call.name = name then some (argumentOf call) else called? name chain := by
  rw [called?, List.find?_cons, called?]
  by_cases h : call.name = name <;> simp [h]

theorem called?_eq_none_iff : called? name chain = none ↔ name ∉ chain.map (·.name) := by
  simp [called?]

/-- What a call says that stands before others of other names. -/
theorem called?_cons_of_notMem {call : Call} (h : call.name ∉ chain.map (·.name)) (name : String) :
    called? name (call :: chain) = (called? name chain).or (called? name [call]) := by
  rw [called?_cons, called?_cons name call []]
  split_ifs with hname
  · rw [← hname, called?_eq_none_iff.2 h, Option.none_or]
  · exact Option.or_none.symm

/-- Where no name stands twice, it does not matter where a call stands. -/
theorem called?_eq_some_iff (h : (chain.map (·.name)).Nodup) {argument : String} :
    called? name chain = some argument ↔
      ∃ call ∈ chain, call.name = name ∧ argumentOf call = argument := by
  induction chain with
  | nil => simp [called?]
  | cons call chain ih =>
    obtain ⟨hnew, hnodup⟩ := List.nodup_cons.1 h
    rw [called?_cons]
    split_ifs with hname
    · subst hname
      have hother : ∀ c ∈ chain, c.name ≠ call.name := fun c hc he =>
        hnew (List.mem_map.2 ⟨c, hc, he⟩)
      simp only [Option.some.injEq, List.mem_cons, exists_eq_or_imp, true_and]
      exact ⟨Or.inl, fun hor => hor.elim id fun ⟨c, hc, he, _⟩ => absurd he (hother c hc)⟩
    · rw [ih hnodup]
      simp [hname]

theorem called?_perm (h : (chain.map (·.name)).Nodup) (hperm : chain.Perm chain') :
    called? name chain = called? name chain' := by
  have hnodup' : (chain'.map (·.name)).Nodup := (hperm.map _).nodup_iff.1 h
  refine Option.ext fun argument => ?_
  simp only [called?_eq_some_iff h, called?_eq_some_iff hnodup', hperm.mem_iff]

theorem called?_sublist (h : (chain.map (·.name)).Nodup) (hsub : chain'.Sublist chain)
    (hname : name ∈ chain'.map (·.name)) : called? name chain' = called? name chain := by
  have hnodup' : (chain'.map (·.name)).Nodup := h.sublist (hsub.map _)
  cases hcalled : called? name chain' with
  | none => exact absurd hname (called?_eq_none_iff.1 hcalled)
  | some argument =>
    obtain ⟨call, hc, hn, ha⟩ := (called?_eq_some_iff hnodup').1 hcalled
    exact ((called?_eq_some_iff h).2 ⟨call, hsub.subset hc, hn, ha⟩).symm

/-- What stands in front of a started reference are calls of other names. -/
theorem called?_started (h : name ∈ starting) :
    called? name (started chain) = called? name chain := by
  induction chain with
  | nil => rfl
  | cons call chain ih =>
    rw [started, List.dropWhile_cons]
    split_ifs with hcall
    · have hne : call.name ≠ name := fun he => of_decide_eq_true hcall (he ▸ h)
      rw [called?_cons, if_neg hne, ← ih, started]
    · rfl

end Called

/-! ## The calls of a reference -/

/-- A chain of `references`, `on`, `onDelete` and `onUpdate`, none of them twice, with the first
two. -/
structure ReferenceChain (chain : List Call) : Prop where
  names : ∀ call ∈ chain, call.name ∈ starting ++ actions
  once : (chain.map (·.name)).Nodup
  both : ∀ name ∈ starting, name ∈ chain.map (·.name)

theorem ReferenceChain.perm {chain chain' : List Call} (h : ReferenceChain chain)
    (hperm : chain.Perm chain') : ReferenceChain chain' where
  names call hcall := h.names call (hperm.mem_iff.2 hcall)
  once := (hperm.map _).nodup_iff.1 h.once
  both name hname := (hperm.map _).mem_iff.1 (h.both name hname)

/-- A reference with what the calls of a chain say. -/
def ForeignReference.withCalls (r : ForeignReference) (chain : List Call) : ForeignReference where
  table := (called? "on" chain).getD r.table
  column := (called? "references" chain).getD r.column
  onDelete := ((called? "onDelete" chain).map Text.toLower).or r.onDelete
  onUpdate := ((called? "onUpdate" chain).map Text.toLower).or r.onUpdate

/-- The reference that a chain declares, if it names a table : an action counts if its call stands
behind the first of `references` and `on`. -/
def declaredReference (chain : List Call) : Option ForeignReference :=
  if called? "on" chain = some "" then none
  else some
    { table := (called? "on" chain).getD ""
      column := (called? "references" chain).getD ""
      onDelete := (called? "onDelete" (started chain)).map Text.toLower
      onUpdate := (called? "onUpdate" (started chain)).map Text.toLower }

section Fold

variable {chain : List Call} (column : String)

theorem withCalls_cons (r : ForeignReference) {call : Call} (h : call.name ∉ chain.map (·.name)) :
    (r.withCalls [call]).withCalls chain = r.withCalls (call :: chain) := by
  simp only [ForeignReference.withCalls, called?_cons_of_notMem h, Option.getD_or, Option.map_or,
    Option.or_assoc]

/-- A reference that was started takes up every call. -/
theorem referenceStep_some (r : ForeignReference) {call : Call}
    (h : call.name ∈ starting ++ actions) :
    referenceStep column (some r) call = some (r.withCalls [call]) := by
  obtain ⟨name, arguments⟩ := call
  have hnames : name = "references" ∨ name = "on" ∨ name = "onDelete" ∨ name = "onUpdate" := by
    simpa [starting, actions] using h
  rcases hnames with rfl | rfl | rfl | rfl <;> rfl

theorem foldl_referenceStep_some (r : ForeignReference)
    (hnames : ∀ call ∈ chain, call.name ∈ starting ++ actions)
    (honce : (chain.map (·.name)).Nodup) :
    chain.foldl (referenceStep column) (some r) = some (r.withCalls chain) := by
  induction chain generalizing r with
  | nil => rfl
  | cons call chain ih =>
    obtain ⟨hcall, hchain⟩ := List.forall_mem_cons.1 hnames
    obtain ⟨hnew, hnodup⟩ := List.nodup_cons.1 honce
    rw [List.foldl_cons, referenceStep_some column r hcall, ih _ hchain hnodup,
      withCalls_cons r hnew]

/-- In front of a call that starts a reference nothing is kept. -/
theorem foldl_referenceStep_none (hnames : ∀ call ∈ chain, call.name ∈ starting ++ actions) :
    chain.foldl (referenceStep column) none =
      (started chain).foldl (referenceStep column) none := by
  induction chain with
  | nil => rfl
  | cons call chain ih =>
    obtain ⟨hcall, hchain⟩ := List.forall_mem_cons.1 hnames
    rw [started, List.dropWhile_cons]
    split_ifs with hstart
    · have hnone : referenceStep column none call = none := by
        obtain ⟨name, arguments⟩ := call
        have hname : name = "onDelete" ∨ name = "onUpdate" := by
          simpa [actions] using (List.mem_append.1 hcall).resolve_left (of_decide_eq_true hstart)
        rcases hname with rfl | rfl <;> rfl
      rw [List.foldl_cons, hnone, ih hchain, started]
    · rfl

/-- A call that starts a reference makes one where there was none. -/
theorem referenceStep_none {call : Call} (h : call.name ∈ starting) :
    referenceStep column none call = referenceStep column (some {}) call := by
  obtain ⟨name, arguments⟩ := call
  have hname : name = "references" ∨ name = "on" := by simpa [starting] using h
  rcases hname with rfl | rfl <;> rfl

theorem exists_started_eq_cons (h : ReferenceChain chain) :
    ∃ call rest, started chain = call :: rest ∧ call.name ∈ starting := by
  have hhead := List.head?_dropWhile_not (fun call : Call => decide (call.name ∉ starting)) chain
  cases hstarted : started chain with
  | nil =>
    have hnone := List.dropWhile_eq_nil_iff.1 hstarted
    obtain ⟨call, hcall, hname⟩ := List.mem_map.1 (h.both "on" (by decide))
    have hother := of_decide_eq_true (hnone call hcall)
    rw [hname] at hother
    exact absurd (by decide) hother
  | cons call rest =>
    rw [← started, hstarted, List.head?_cons] at hhead
    exact ⟨call, rest, rfl, by simpa using hhead⟩

/-- A chain says for each name what its call says, for the actions if it stands behind the start of
the reference. -/
theorem referenceOfChain_eq (h : ReferenceChain chain) :
    referenceOfChain column chain = declaredReference chain := by
  obtain ⟨call, rest, hstarted, hcall⟩ := exists_started_eq_cons h
  have hsub := started_sublist chain
  -- the first call of the rest makes the reference, so the fold can begin with an empty one as well
  have hfold : chain.foldl (referenceStep column) none =
      some (ForeignReference.withCalls {} (started chain)) := by
    rw [foldl_referenceStep_none column h.names, ← foldl_referenceStep_some column {}
      (fun c hc => h.names c (hsub.subset hc)) (h.once.sublist (hsub.map _)), hstarted,
      List.foldl_cons, List.foldl_cons, referenceStep_none column hcall]
  have hon : called? "on" (started chain) = called? "on" chain := called?_started (by decide)
  have hreferences : called? "references" (started chain) = called? "references" chain :=
    called?_started (by decide)
  rw [referenceOfChain, hfold, declaredReference, Option.filter_some, ForeignReference.withCalls, hon,
    hreferences]
  cases hcalled : called? "on" chain with
  | none => exact absurd (h.both "on" (by decide)) (called?_eq_none_iff.1 hcalled)
  | some table => by_cases ht : table = "" <;> simp [ht]

end Fold

/-! ## Other orders -/

section Order

variable {chain chain' : List Call}

/-- An action is said in two orders alike if it stands behind the start of the reference in both of
them, or in neither. -/
theorem called?_started_eq_iff (honce : (chain.map (·.name)).Nodup) (hperm : chain.Perm chain')
    (action : String) : (called? action (started chain)).map Text.toLower =
      (called? action (started chain')).map Text.toLower ↔
        (action ∈ (started chain).map (·.name) ↔ action ∈ (started chain').map (·.name)) := by
  have honce' : (chain'.map (·.name)).Nodup := (hperm.map _).nodup_iff.1 honce
  have hsome : ∀ {c : List Call}, action ∈ c.map (·.name) → called? action c ≠ none :=
    fun hmem hnone => called?_eq_none_iff.1 hnone hmem
  -- an action that stands behind the start says what its call says anywhere in the chain
  by_cases h : action ∈ (started chain).map (·.name) <;>
    by_cases h' : action ∈ (started chain').map (·.name)
  · rw [called?_sublist honce (started_sublist chain) h, called?_perm honce hperm,
      called?_sublist honce' (started_sublist chain') h']
    exact iff_of_true rfl (iff_of_true h h')
  · rw [called?_eq_none_iff.2 h', Option.map_none, Option.map_eq_none_iff]
    exact iff_of_false (hsome h) fun hiff => h' (hiff.1 h)
  · rw [called?_eq_none_iff.2 h, Option.map_none, eq_comm, Option.map_eq_none_iff]
    exact iff_of_false (hsome h') fun hiff => h (hiff.2 h')
  · rw [called?_eq_none_iff.2 h, called?_eq_none_iff.2 h']
    exact iff_of_true rfl (iff_of_false h h')

theorem declaredReference_eq_iff (h : ReferenceChain chain) (hperm : chain.Perm chain') :
    declaredReference chain = declaredReference chain' ↔ called? "on" chain = some "" ∨
      ∀ action ∈ actions,
        (action ∈ (started chain).map (·.name) ↔ action ∈ (started chain').map (·.name)) := by
  rw [declaredReference, declaredReference, ← called?_perm h.once hperm, ← called?_perm h.once hperm]
  by_cases hon : called? "on" chain = some ""
  · simp [hon]
  · rw [if_neg hon, if_neg hon]
    simp only [Option.some.injEq, ForeignReference.mk.injEq, true_and,
      called?_started_eq_iff h.once hperm, hon, false_or]
    simp [actions]

/-- Table and column are the same in any order. -/
theorem map_declaredReference (h : ReferenceChain chain) (hperm : chain.Perm chain') :
    (declaredReference chain).map (fun r => (r.table, r.column)) =
      (declaredReference chain').map fun r => (r.table, r.column) := by
  rw [declaredReference, declaredReference, ← called?_perm h.once hperm, ← called?_perm h.once hperm]
  split_ifs <;> rfl

end Order

/-! ## Columns of migrations -/

/-- The helpers that declare no column. -/
def columnless : List String :=
  ["index", "unique", "primary", "foreign", "dropColumn", "renameColumn", "dropForeign", "dropIndex",
    "dropUnique"]

/-- This is the reference that a migration records for a column with a chain : the column is declared
with it, and a key that is declared afterwards gives it to the first column of its name. -/
structure Records (name : String) (chain : List Call) (ref : Option ForeignReference) : Prop where
  declared : ∀ (m : Migration), ∀ helper ∉ columnless, ∃ column,
    (m.withColumnCall helper (some name) chain).columns = m.columns ++ [column] ∧
      column.name = name ∧ column.references = ref
  foreign : ∀ m : Migration,
    (m.withColumnCall "foreign" (some name) chain).columns.find? (·.name = name) =
      (m.columns.find? (·.name = name)).map ({ · with references := ref })

theorem name_foldl_withModifier (chain : List Call) (c : Column) :
    (chain.foldl Column.withModifier c).name = c.name := by
  induction chain generalizing c with
  | nil => rfl
  | cons call chain ih =>
    rw [List.foldl_cons, ih, Column.withModifier]
    split <;> rfl

theorem find?_setReference (name : String) (ref : Option ForeignReference) (cs : List Column) :
    (setReference name ref cs).find? (·.name = name) =
      (cs.find? (·.name = name)).map ({ · with references := ref }) := by
  induction cs with
  | nil => rfl
  | cons c cs ih =>
    rw [setReference, List.find?_cons]
    split_ifs with hc
    · simp [hc]
    · rw [List.find?_cons]
      simp [hc, ih]

theorem records_referenceOfChain (name : String) (chain : List Call) :
    Records name chain (referenceOfChain name chain) where
  declared m helper hhelper := by
    have hkinds : helper ∉ ["index", "unique", "primary"] := fun h =>
      hhelper (List.mem_append_left _ h)
    have hforeign : helper ≠ "foreign" := fun h => hhelper (by rw [h]; decide)
    have hdrop : helper ∉ ["dropColumn", "renameColumn", "dropForeign", "dropIndex", "dropUnique"] :=
      fun h => hhelper (List.mem_append_right ["index", "unique", "primary", "foreign"] h)
    rw [Migration.withColumnCall, if_neg hkinds, if_neg hforeign, if_neg hdrop]
    exact ⟨_, rfl, name_foldl_withModifier chain _, rfl⟩
  foreign m := find?_setReference name _ m.columns

/-- For a chain of `references`, `on`, `onDelete` and `onUpdate`, none of them twice, with the first
two : a migration records the table and the column that their calls name, in any order, and each
action whose call stands behind the first of `references` and `on`. So two orders record the same
reference just if the same actions stand behind that call in both of them, or if no table is named
and so nothing is recorded. -/
theorem reference_any_order (name : String) {chain : List Call} (h : ReferenceChain chain) :
    Records name chain (declaredReference chain) ∧
      ∀ chain', chain.Perm chain' →
        Records name chain' (declaredReference chain') ∧
        (declaredReference chain).map (fun r => (r.table, r.column)) =
          (declaredReference chain').map (fun r => (r.table, r.column)) ∧
        (declaredReference chain = declaredReference chain' ↔ called? "on" chain = some "" ∨
          ∀ action ∈ actions,
            (action ∈ (started chain).map (·.name) ↔ action ∈ (started chain').map (·.name))) := by
  have hrecords : ∀ {c : List Call}, ReferenceChain c → Records name c (declaredReference c) :=
    fun hc => referenceOfChain_eq name hc ▸ records_referenceOfChain name _
  exact ⟨hrecords h, fun chain' hperm => ⟨hrecords (h.perm hperm),
    map_declaredReference h hperm, declaredReference_eq_iff h hperm⟩⟩

/-- A chain that says first what happens when the other row is deleted. -/
def deletionFirst : List Call :=
  chainCalls "->onDelete('cascade')->references('id')->on('users')"

theorem referenceChain_deletionFirst : ReferenceChain deletionFirst :=
  ⟨by decide +kernel, by decide +kernel, by decide +kernel⟩

/-- The action is not recorded. -/
theorem reference_any_order_deletionFirst : ReferenceChain deletionFirst ∧
    Records "user_id" deletionFirst (some { table := "users", column := "id" }) := by
  have hdeclared : declaredReference deletionFirst = some { table := "users", column := "id" } := by
    decide +kernel
  have hrecords := (reference_any_order "user_id" referenceChain_deletionFirst).1
  rw [hdeclared] at hrecords
  exact ⟨referenceChain_deletionFirst, hrecords⟩

/-- Behind the two calls the same action is recorded. -/
theorem action_in_front_not_recorded :
    ¬∀ (name : String) (chain chain' : List Call), ReferenceChain chain → chain.Perm chain' →
      referenceOfChain name chain = referenceOfChain name chain' := by
  intro h
  have hsame := h "user_id" deletionFirst (deletionFirst.drop 1 ++ deletionFirst.take 1)
    referenceChain_deletionFirst (by decide +kernel)
  revert hsame
  decide +kernel

end Atlas.Laravel
