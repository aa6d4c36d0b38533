import Atlas.Swagger.Sample
import Mathlib.Data.List.Basic
import Mathlib.Logic.Function.Iterate
import Mathlib.Logic.Relation

/-!
# References in sample values

The value of a shape is made from those of its parts, or, where the shape is a reference, it is that
of the schema named there (`Schema.sampleWith_eq`, `Spec.sample_eq`). These are the calls from a shape
(`Spec.Calls`). With a limit on the references that are followed they come to an end in any
description, be it cyclic or not (`Spec.wellFounded_calls`).

Putting the schemas in place of the references to them makes a shape without references that has the
same value (`Spec.inline`, `Spec.sample_inline`). Where no chain of references is longer than the
limit, the value is what the calls give without a limit (`Spec.Yields`, `Spec.yields_sample`). All
this together is `Spec.sample_inlined`.
-/

set_option linter.unusedSectionVars false

namespace Atlas.Swagger

/-! ## One step -/

namespace Schema

/-- The shapes that stand in a shape. -/
def children : Schema → List Schema
  | .mk _ _ properties items _ _ _ => properties.map Prod.snd ++ items.toList

/-- The shapes whose values make up the value of a shape. -/
def parts : Schema → List Schema
  | .mk type _ properties items none none [] =>
    match type with
    | some "object" | none => properties.map Prod.snd
    | some "array" => items.toList
    | _ => []
  | _ => []

/-- The value of a shape that is no reference, from the values of its parts. -/
def assemble : Schema → List Data → Data
  | .mk type format properties _ _ sample values, ds =>
    match sample, values with
    | some d, _ => d
    | none, d :: _ => d
    | none, [] =>
      match type with
      | some "object" => .record ((properties.map Prod.fst).zip ds)
      | some "array" => .list ds
      | some "string" => .text (sampleText format)
      | some "integer" | some "number" => .nat 0
      | some "boolean" => .bool false
      | some _ => .null
      | none => if properties = [] then .null else .record ((properties.map Prod.fst).zip ds)

theorem parts_subset_children (s : Schema) : s.parts ⊆ s.children := by
  unfold parts children
  split
  · split
    · exact List.subset_append_left _ _
    · exact List.subset_append_left _ _
    · exact List.subset_append_right _ _
    · exact List.nil_subset _
  · exact List.nil_subset _

theorem sizeOf_lt_of_mem_children {s t : Schema} (h : t ∈ s.children) : sizeOf t < sizeOf s := by
  obtain ⟨type, format, properties, items, reference, sample, values⟩ := s
  rw [Schema.mk.sizeOf_spec]
  rcases List.mem_append.1 h with h | h
  · obtain ⟨⟨name, t⟩, hmem, rfl⟩ := List.mem_map.1 h
    have hlt := List.sizeOf_lt_of_mem hmem
    rw [Prod.mk.sizeOf_spec] at hlt
    dsimp only
    omega
  · have hitems : items = some t := Option.mem_toList.1 h
    rw [hitems, Option.some.sizeOf_spec]
    omega

theorem sampleMembers_eq (f : String → Data) (ps : List (String × Schema)) : sampleMembers f ps =
    (ps.map Prod.fst).zip ((ps.map Prod.snd).map (sampleWith f)) := by
  induction ps with
  | nil => simp [sampleMembers]
  | cons p ps ih => simp [sampleMembers, ih]

theorem sampleItems_eq (f : String → Data) (items : Option Schema) : sampleItems f items =
    items.toList.map (sampleWith f) := by
  cases items <;> simp [sampleItems]

theorem sampleWith_eq (f : String → Data) (s : Schema) : s.sampleWith f =
    match s.reference with
    | some r => f r
    | none => s.assemble (s.parts.map (sampleWith f)) := by
  obtain ⟨type, format, properties, items, reference, sample, values⟩ := s
  cases reference with
  | some r => simp [sampleWith, reference]
  | none =>
    cases sample with
    | some d => simp [sampleWith, reference, assemble]
    | none =>
      cases values with
      | cons d ds => simp [sampleWith, reference, assemble]
      | nil =>
        simp only [sampleWith, reference, assemble, sampleMembers_eq, sampleItems_eq]
        split <;> simp_all [parts]
        cases properties <;> rfl

/-- What holds of a shape if it holds of those that stand in it holds of every shape. -/
@[elab_as_elim]
theorem induction_children {P : Schema → Prop} (s : Schema)
    (step : ∀ s, (∀ t ∈ s.children, P t) → P s) : P s :=
  (measure (sizeOf : Schema → ℕ)).wf.induction s fun s ih =>
    step s fun t ht => ih t (sizeOf_lt_of_mem_children ht)

/-! ## Inlining -/

mutual

/-- The shape with other shapes in place of its references. -/
def inlineWith (target : String → Schema) : Schema → Schema
  | .mk type format properties items reference sample values =>
    match reference with
    | some r => target r
    | none =>
      .mk type format (inlineMembers target properties) (inlineItems target items) none sample values

/-- `inlineWith` of the shape of every member. -/
def inlineMembers (target : String → Schema) : List (String × Schema) → List (String × Schema)
  | [] => []
  | (name, s) :: r => (name, s.inlineWith target) :: inlineMembers target r

/-- `inlineWith` of the shape of items. -/
def inlineItems (target : String → Schema) : Option Schema → Option Schema
  | none => none
  | some s => some (s.inlineWith target)

end

/-- No reference stands anywhere in the shape. -/
def Flat (s : Schema) : Prop :=
  ∀ t, Relation.ReflTransGen (fun s t => t ∈ s.children) s t → t.reference = none

theorem flat_iff {s : Schema} : s.Flat ↔ s.reference = none ∧ ∀ t ∈ s.children, t.Flat := by
  constructor
  · exact fun h => ⟨h s .refl, fun t ht u hu => h u (.head ht hu)⟩
  · rintro ⟨hs, hchildren⟩ t ht
    rcases ht.cases_head with rfl | ⟨u, hu, ht⟩
    · exact hs
    · exact hchildren u hu t ht

section Inline

variable (target : String → Schema)

theorem inlineMembers_eq (ps : List (String × Schema)) :
    inlineMembers target ps = ps.map fun p => (p.1, p.2.inlineWith target) := by
  induction ps with
  | nil => simp [inlineMembers]
  | cons p ps ih => simp [inlineMembers, ih]

theorem inlineItems_eq (items : Option Schema) :
    inlineItems target items = items.map (inlineWith target) := by
  cases items <;> simp [inlineItems]

theorem inlineWith_of_reference {s : Schema} {r : String} (h : s.reference = some r) :
    s.inlineWith target = target r := by
  obtain ⟨type, format, properties, items, reference, sample, values⟩ := s
  simp_all [inlineWith, Schema.reference]

variable {s : Schema}

theorem reference_inlineWith (h : s.reference = none) :
    (s.inlineWith target).reference = none := by
  obtain ⟨type, format, properties, items, reference, sample, values⟩ := s
  obtain rfl : reference = none := h
  rfl

theorem children_inlineWith (h : s.reference = none) :
    (s.inlineWith target).children = s.children.map (inlineWith target) := by
  obtain ⟨type, format, properties, items, reference, sample, values⟩ := s
  obtain rfl : reference = none := h
  cases items <;> simp [inlineWith, children, inlineMembers_eq, inlineItems_eq]

theorem parts_inlineWith (h : s.reference = none) :
    (s.inlineWith target).parts = s.parts.map (inlineWith target) := by
  obtain ⟨type, format, properties, items, reference, sample, values⟩ := s
  obtain rfl : reference = none := h
  cases sample with
  | some d => rfl
  | none =>
    cases values with
    | cons d ds => rfl
    | nil =>
      simp only [inlineWith, inlineMembers_eq, inlineItems_eq, parts]
      split <;> cases items <;> simp [Function.comp_def]

theorem assemble_inlineWith (h : s.reference = none) (ds : List Data) :
    (s.inlineWith target).assemble ds = s.assemble ds := by
  obtain ⟨type, format, properties, items, reference, sample, values⟩ := s
  obtain rfl : reference = none := h
  simp [inlineWith, assemble, inlineMembers_eq, Function.comp_def]

/-- The value of a shape with others in place of its references is made of the values of these. -/
theorem sampleWith_inlineWith (f : String → Data) (s : Schema) : (s.inlineWith target).sampleWith f =
    s.sampleWith fun r => (target r).sampleWith f := by
  induction s using induction_children with
  | step s ih =>
    cases hs : s.reference with
    | some r =>
      rw [inlineWith_of_reference target hs, sampleWith_eq _ s, hs]
    | none =>
      rw [sampleWith_eq, sampleWith_eq _ s, hs, reference_inlineWith target hs,
        parts_inlineWith target hs, assemble_inlineWith target hs, List.map_map]
      dsimp only
      congr 1
      exact List.map_congr_left fun t ht => ih t (s.parts_subset_children ht)

/-- Where shapes without references are put in place of references none is left. -/
theorem flat_inlineWith {target : String → Schema} (h : ∀ r, (target r).Flat) (s : Schema) :
    (s.inlineWith target).Flat := by
  induction s using induction_children with
  | step s ih =>
    cases hs : s.reference with
    | some r =>
      rw [inlineWith_of_reference target hs]
      exact h r
    | none =>
      rw [flat_iff, children_inlineWith target hs]
      exact ⟨reference_inlineWith target hs, List.forall_mem_map.2 ih⟩

end Inline

end Schema

namespace Spec

variable {spec : Spec} {s : Schema}

/-- The shape of which nothing is the value. -/
def nullSchema : Schema :=
  .mk none none [] none none (some .null) []

/-- The shape that a reference stands for if `n` more references may be followed. A reference that
leads nowhere stands for nothing, and so do all if there may be none. -/
def inlineOf (spec : Spec) : ℕ → String → Schema
  | 0, _ => nullSchema
  | n + 1, reference =>
    match spec.resolve? reference with
    | some s => s.inlineWith (spec.inlineOf n)
    | none => nullSchema

/-- The shape with the schemas in place of its references, through `maxReferences` of them. -/
def inline (spec : Spec) (s : Schema) : Schema :=
  s.inlineWith (spec.inlineOf maxReferences)

theorem flat_inlineOf (spec : Spec) (n : ℕ) (r : String) : (spec.inlineOf n r).Flat := by
  have hnull : nullSchema.Flat := Schema.flat_iff.2 ⟨rfl, List.forall_mem_nil _⟩
  induction n generalizing r with
  | zero => exact hnull
  | succ n ih =>
    rw [inlineOf]
    split
    · exact Schema.flat_inlineWith ih _
    · exact hnull

theorem sampleWith_inlineOf (spec : Spec) (f : String → Data) (n : ℕ) (r : String) :
    (spec.inlineOf n r).sampleWith f = spec.sampleOf n r := by
  have hnull : nullSchema.sampleWith f = .null := by
    rw [Schema.sampleWith_eq]
    rfl
  induction n generalizing r with
  | zero => exact hnull
  | succ n ih =>
    rw [inlineOf, sampleOf]
    cases spec.resolve? r with
    | none => exact hnull
    | some t =>
      rw [Schema.sampleWith_inlineWith]
      exact congrArg t.sampleWith (funext ih)

/-- The value of a shape is that of the shape without references that is made of it, whatever
description that is read in. -/
theorem sample_inline (spec other : Spec) (s : Schema) (depth : ℕ) :
    other.sample (spec.inline s) depth = spec.sample s 0 := by
  rw [sample, inline, Schema.sampleWith_inlineWith, sample]
  exact congrArg s.sampleWith (funext fun r => spec.sampleWith_inlineOf _ _ r)

/-! ## Calls -/

/-- The value of one shape is made from that of another, which is reached through as many references
or through one more. References may be followed up to a limit. -/
inductive Calls (spec : Spec) (limit : Option ℕ) : Schema × ℕ → Schema × ℕ → Prop where
  | part {s t : Schema} {depth : ℕ} (ht : t ∈ s.parts) : Calls spec limit (s, depth) (t, depth)
  | follow {s t : Schema} {depth : ℕ} {r : String} (hs : s.reference = some r)
      (hlimit : ∀ n ∈ limit, depth < n) (ht : spec.resolve? r = some t) :
      Calls spec limit (s, depth) (t, depth + 1)

/-- Calls lead from one shape to another. -/
abbrev Reaches (spec : Spec) (limit : Option ℕ) : Schema × ℕ → Schema × ℕ → Prop :=
  Relation.ReflTransGen (spec.Calls limit)

/-- The value of a shape is made just from those of the shapes it calls. -/
theorem sample_eq (spec : Spec) (s : Schema) (depth : ℕ) : spec.sample s depth =
    match s.reference with
    | some r =>
      if maxReferences ≤ depth then .null
      else match spec.resolve? r with
        | some t => spec.sample t (depth + 1)
        | none => .null
    | none => s.assemble (s.parts.map (spec.sample · depth)) := by
  rw [sample, Schema.sampleWith_eq]
  cases s.reference with
  | none => rfl
  | some r =>
    dsimp only
    split_ifs with hdepth
    · rw [Nat.sub_eq_zero_of_le hdepth]
      rfl
    · have hleft : maxReferences - depth = (maxReferences - (depth + 1)) + 1 := by omega
      rw [hleft, sampleOf]
      rfl

/-- Calls take references from those that are left, or go to a part. -/
theorem wellFounded_calls (spec : Spec) (n : ℕ) :
    WellFounded fun c c' => spec.Calls (some n) c' c := by
  refine Subrelation.wf (r := InvImage (Prod.Lex (· < ·) (· < ·))
    fun c : Schema × ℕ => (n - c.2, sizeOf c.1)) ?_
    (InvImage.wf _ (Prod.lex Nat.lt_wfRel Nat.lt_wfRel).wf)
  rintro c c' (⟨ht⟩ | ⟨-, hlimit, -⟩)
  · exact Prod.Lex.right _ (Schema.sizeOf_lt_of_mem_children (Schema.parts_subset_children _ ht))
  · have hlt := hlimit n rfl
    exact Prod.Lex.left _ _ (by omega)

/-- No path of calls follows more references than the limit allows. -/
theorem depth_le_of_reaches {n : ℕ} {c : Schema × ℕ}
    (h : spec.Reaches (some n) (s, 0) c) : c.2 ≤ n := by
  induction h with
  | refl => exact Nat.zero_le n
  | tail _ hcall ih =>
    cases hcall with
    | part => exact ih
    | follow _ hlimit _ => exact hlimit n rfl

/-! ## No limit -/

/-- The shape has a value if references are followed without a limit. -/
inductive Yields (spec : Spec) : Schema → Data → Prop where
  | follow {s t : Schema} {r : String} {d : Data} (hs : s.reference = some r)
      (ht : spec.resolve? r = some t) (hd : Yields spec t d) : Yields spec s d
  | nowhere {s : Schema} {r : String} (hs : s.reference = some r) (hr : spec.resolve? r = none) :
      Yields spec s .null
  | assemble {s : Schema} (hs : s.reference = none) (value : Schema → Data)
      (hvalue : ∀ t ∈ s.parts, Yields spec t (value t)) :
      Yields spec s (s.assemble (s.parts.map value))

theorem Yields.unique {d d' : Data} (h : spec.Yields s d) (h' : spec.Yields s d') : d = d' := by
  induction h generalizing d' with
  | follow hs ht _ ih =>
    cases h' with
    | follow hs' ht' hd' =>
      obtain rfl := Option.some.inj (hs.symm.trans hs')
      obtain rfl := Option.some.inj (ht.symm.trans ht')
      exact ih hd'
    | nowhere hs' hr' => simp_all
    | assemble hs' => simp_all
  | nowhere hs hr =>
    cases h' with
    | follow hs' ht' => simp_all
    | nowhere => rfl
    | assemble hs' => simp_all
  | assemble hs value _ ih =>
    cases h' with
    | follow hs' => simp_all
    | nowhere hs' => simp_all
    | assemble _ value' hvalue' =>
      exact congrArg _ (List.map_congr_left fun t ht => ih t ht (hvalue' t ht))

/-- The value is that without a limit if no chain of references is longer than the limit. -/
theorem yields_sample {c : Schema × ℕ}
    (h : ∀ c', spec.Reaches none c c' → c'.2 ≤ maxReferences) :
    spec.Yields c.1 (spec.sample c.1 c.2) := by
  induction c using (spec.wellFounded_calls maxReferences).induction with
  | h c ih =>
    obtain ⟨s, depth⟩ := c
    have hcall : ∀ c', spec.Calls (some maxReferences) (s, depth) c' →
        spec.Calls none (s, depth) c' → spec.Yields c'.1 (spec.sample c'.1 c'.2) :=
      fun c' hc' hnone => ih c' hc' fun c'' hc'' => h c'' (.head hnone hc'')
    rw [sample_eq]
    cases hs : s.reference with
    | none =>
      exact .assemble hs _ fun t ht => hcall (t, depth) (.part ht) (.part ht)
    | some r =>
      dsimp only
      cases hr : spec.resolve? r with
      | none =>
        rw [ite_self]
        exact .nowhere hs hr
      | some t =>
        have hfollow : spec.Calls none (s, depth) (t, depth + 1) := .follow hs (by simp) hr
        have hdepth : depth + 1 ≤ maxReferences := h _ (.single hfollow)
        rw [if_neg (by omega)]
        have hlimit : ∀ n ∈ some maxReferences, depth < n := by
          rintro n ⟨⟩
          omega
        exact .follow hs hr (hcall (t, depth + 1) (.follow hs hlimit hr) hfollow)

/-- The value of a shape is made step by step from those of the shapes it calls, and no calls go on
forever. No path of calls follows more than five references. The value is that of a shape without
references, in which the schemas stand in place of the references to them, and nothing in place of
those that lead nowhere or would be the sixth on their path. If no chain of references is longer than
five, the value is the only one that there is without a limit. -/
theorem sample_inlined (spec : Spec) (s : Schema) :
    (∀ t depth, spec.sample t depth =
      match t.reference with
      | some r =>
        if 5 ≤ depth then .null
        else match spec.resolve? r with
          | some u => spec.sample u (depth + 1)
          | none => .null
      | none => t.assemble (t.parts.map (spec.sample · depth))) ∧
    (WellFounded fun c c' => spec.Calls (some 5) c' c) ∧
    (∀ t n, spec.Reaches (some 5) (s, 0) (t, n) → n ≤ 5) ∧
    (spec.inline s).Flat ∧
    (∀ (other : Spec) depth, other.sample (spec.inline s) depth = spec.sample s 0) ∧
    ((∀ t n, spec.Reaches none (s, 0) (t, n) → n ≤ 5) →
      ∀ value, spec.Yields s value ↔ value = spec.sample s 0) := by
  refine ⟨spec.sample_eq, spec.wellFounded_calls 5, fun t n => depth_le_of_reaches,
    Schema.flat_inlineWith (spec.flat_inlineOf _) s, fun other => spec.sample_inline other s,
    fun hchains value => ?_⟩
  have hyields : spec.Yields s (spec.sample s 0) := yields_sample fun c => hchains c.1 c.2
  constructor
  · exact fun hvalue => hvalue.unique hyields
  · rintro rfl
    exact hyields

/-- The calls from a shape if there is no limit. -/
def next (spec : Spec) (c : Schema × ℕ) : List (Schema × ℕ) :=
  c.1.parts.map (·, c.2) ++ (c.1.reference.bind spec.resolve?).toList.map (·, c.2 + 1)

theorem mem_next_of_calls {c c' : Schema × ℕ} (h : spec.Calls none c c') : c' ∈ spec.next c := by
  rcases h with ⟨ht⟩ | ⟨hs, -, ht⟩
  · exact List.mem_append_left _ (List.mem_map_of_mem ht)
  · exact List.mem_append_right _ (by simp [hs, ht])

/-- Chains from a shape are no longer than a bound if those from all that it calls are not. -/
theorem forall_chains {c : Schema × ℕ} {m : ℕ} (hc : c.2 ≤ m)
    (hnext : ∀ c' ∈ spec.next c, ∀ c'', spec.Reaches none c' c'' → c''.2 ≤ m) :
    ∀ c'', spec.Reaches none c c'' → c''.2 ≤ m := by
  intro c'' h
  rcases h.cases_head with rfl | ⟨c', hcall, h⟩
  · exact hc
  · exact hnext c' (mem_next_of_calls hcall) c'' h

/-- A shape that is a reference. -/
def referenceTo (name : String) : Schema :=
  .mk none none [] none (some ("#/definitions/" ++ name)) none []

/-- A description of orders with items, and with owners that it says nothing of. -/
def orderSpec : Spec where
  definitions :=
    [("Item", .mk (some "array") none [] (some (.mk (some "string") none [] none none none []))
        none none []),
      ("Order", .mk (some "object") none
        [("item", referenceTo "Item"), ("owner", referenceTo "User")] none none none [])]

theorem sample_inlined_orderSpec :
    (∀ t n, orderSpec.Reaches none (referenceTo "Order", 0) (t, n) → n ≤ 5) ∧
    orderSpec.Yields (referenceTo "Order")
      (.record [("item", .list [.text "string"]), ("owner", .null)]) := by
  have hitem : ∀ c, orderSpec.Reaches none (referenceTo "Item", 1) c → c.2 ≤ 5 :=
    forall_chains (by decide) (List.forall_mem_singleton.2
      (forall_chains (by decide) (List.forall_mem_singleton.2
        (forall_chains (by decide) (List.forall_mem_nil _)))))
  have howner : ∀ c, orderSpec.Reaches none (referenceTo "User", 1) c → c.2 ≤ 5 :=
    forall_chains (by decide) (List.forall_mem_nil _)
  have horder : ∀ c, orderSpec.Reaches none (referenceTo "Order", 0) c → c.2 ≤ 5 :=
    forall_chains (by decide) (List.forall_mem_singleton.2
      (forall_chains (by decide) (List.forall_mem_cons.2
        ⟨hitem, List.forall_mem_singleton.2 howner⟩)))
  have hchains : ∀ t n, orderSpec.Reaches none (referenceTo "Order", 0) (t, n) →
      n ≤ 5 := fun t n => horder (t, n)
  obtain ⟨-, -, -, -, -, hlimit⟩ := sample_inlined orderSpec (referenceTo "Order")
  exact ⟨hchains, (hlimit hchains _).2 rfl⟩

/-- A description of users, each with a user as manager. -/
def userSpec : Spec where
  definitions :=
    [("User", .mk (some "object") none [("manager", referenceTo "User")] none none none [])]

example : userSpec.sample (referenceTo "User") 0 =
    (fun d => Data.record [("manager", d)])^[maxReferences] .null :=
  rfl

end Spec

end Atlas.Swagger
