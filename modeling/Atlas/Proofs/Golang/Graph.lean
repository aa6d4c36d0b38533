import Atlas.Golang.Graph
import Atlas.Proofs.Graph.Growth
import Atlas.Proofs.Text
import Mathlib.Data.List.TakeWhile

/-!
# The relations of a Go project

Each step that builds the graph of a project adds certain relations of each kind behind those that
are there (`Graph.Gains`), and so do all of them together (`Graph.Gains.foldl`). The relations other
than containment are those of the structs, directory by directory (`relationsOfKind_graph`); among
them, a struct uses another one exactly for a field whose type refers to it
(`uses_mem_relationsOf`).

A field refers to a type through any stars and slices in front of it (`strip_fieldType`). Which
types are not followed is decided by what their text contains, and a name can contain that as well:
a struct is used by a field of its type unless its name contains `chan` or starts with `func`
(`uses_mem_graph_iff`).
-/

set_option linter.unusedSectionVars false

namespace Atlas

namespace Golang

open Atlas.Graph

/-! ## Relations -/

section Kind

variable {k : RelationKind} (hk : k ≠ .contains)

include hk

/-- A member of a package adds nothing but its containment. -/
theorem gains_addMember (package : Entity) : Gains k (addMember package) fun _ => [] :=
  fun g n h => by
    have hnew : (g.addNew n).relationsOfKind k = g.relationsOfKind k :=
      congrArg (List.filter _) (h.relations_addNew n)
    have hnone : [(⟨package, n.entity, .contains, none⟩ : Relation)].filter (·.kind = k) = [] :=
      List.filter_cons_of_neg (by simpa using hk.symm)
    rw [addMember]
    split
    · next i g' ha =>
      have hg' : g.addNew n = g' := by rw [addNew, ha]
      rw [← hg']
      exact ⟨(h.addNew n).relate _,
        (gains_relate k _ _ (h.addNew n)).2.trans (congrArg₂ (· ++ ·) hnew hnone)⟩
    · exact ⟨h, (List.append_nil _).symm⟩

theorem gains_addFile (directory : String) : Gains k (addFile directory) fun _ => [] :=
  fun g f h => by
    have hplace : (g.ensure (entityIn directory .package f.package)).2.relationsOfKind k =
        g.relationsOfKind k := congrArg (List.filter _) (h.relations_place _)
    obtain ⟨hall, hrel⟩ := (gains_addMember hk (entityIn directory .package f.package)).foldl
      (h.place { entity := entityIn directory .package f.package }) (f.members directory)
    refine ⟨hall, hrel.trans ?_⟩
    rw [List.flatMap_eq_nil_iff.2 fun _ _ => rfl]
    exact congrArg (· ++ []) hplace

theorem gains_addDirectory :
    Gains k addDirectory fun d => (d.structs.flatMap d.relationsOf).filter (·.kind = k) :=
  fun g d h => by
    obtain ⟨hfiles, hrel⟩ := (gains_addFile hk d.path).foldl h d.files
    obtain ⟨hall, hrels⟩ := (gains_relate k).foldl hfiles (d.structs.flatMap d.relationsOf)
    rw [List.flatMap_eq_nil_iff.2 fun _ _ => rfl, List.append_nil] at hrel
    rw [← List.filter_flatMap, List.flatMap_singleton', hrel] at hrels
    exact ⟨hall, hrels⟩

/-- The relations of a project other than containment, in the order of directories and structs. -/
theorem relationsOfKind_graph (p : Project) : p.graph.relationsOfKind k =
    p.directories.flatMap fun d => (d.structs.flatMap d.relationsOf).filter (·.kind = k) :=
  ((gains_addDirectory hk).foldl wellFormed_empty p.directories).2

end Kind

theorem mem_relations_graph {p : Project} {r : Relation} (hr : r.kind ≠ .contains) :
    r ∈ p.graph.relations ↔ ∃ d ∈ p.directories, ∃ s ∈ d.structs, r ∈ d.relationsOf s := by
  have hmem : r ∈ p.graph.relations ↔ r ∈ p.graph.relationsOfKind r.kind := by
    simp [relationsOfKind]
  rw [hmem, relationsOfKind_graph hr]
  simp

/-- A struct uses another one of its directory for a field whose type refers to that one. -/
theorem uses_mem_relationsOf {d : Directory} {s : Struct} {source target : Entity}
    {label : Option String} : ⟨source, target, .uses, label⟩ ∈ d.relationsOf s ↔
      ∃ f ∈ s.fields, ∃ t ∈ d.structs, f.localType? = some t.name ∧ t.name ≠ s.name ∧
        source = entityIn d.path .struct s.name ∧ target = entityIn d.path .struct t.name ∧
        label = some f.name := by
  simp only [Directory.relationsOf, List.mem_append, List.mem_filterMap, List.mem_map]
  constructor
  · rintro (⟨f, hf, h⟩ | ⟨i, -, h⟩)
    · split at h
      · next name hname =>
        split at h
        · next hcond =>
          obtain ⟨hne, hany⟩ := hcond
          obtain ⟨t, ht, hbeq⟩ := List.any_eq_true.1 hany
          obtain rfl := eq_of_beq hbeq
          obtain ⟨rfl, rfl, -, rfl⟩ := Relation.mk.inj (Option.some.inj h)
          exact ⟨f, hf, t, ht, hname, hne, rfl, rfl, rfl⟩
        · cases h
      · cases h
    · cases h
  · rintro ⟨f, hf, t, ht, hname, hne, rfl, rfl, rfl⟩
    have hany : d.structs.any (·.name == t.name) = true :=
      List.any_eq_true.2 ⟨t, ht, beq_self_eq_true _⟩
    refine Or.inl ⟨f, hf, ?_⟩
    rw [hname]
    exact if_pos ⟨hne, hany⟩

end Golang

end Atlas

namespace Atlas.Golang

/-! ## Names -/

/-- A letter of an identifier, which the underscore counts as. -/
def isNameLetter (c : Char) : Bool :=
  Chars.isLetter c || c == '_'

/-- An identifier of the language: a letter, and letters and digits after it. -/
def IsIdentifier (name : String) : Prop :=
  ∃ c r, name.toList = c :: r ∧ isNameLetter c = true ∧
    ∀ d ∈ r, isNameLetter d = true ∨ Chars.isDecimal d = true

namespace IsIdentifier

variable {name : String}

theorem of_all (hne : name.toList ≠ []) (h : name.toList.all isNameLetter = true) :
    IsIdentifier name := by
  obtain ⟨c, r, hname⟩ := List.exists_cons_of_ne_nil hne
  rw [hname, List.all_cons, Bool.and_eq_true, List.all_eq_true] at h
  exact ⟨c, r, hname, h.1, fun d hd => Or.inl (h.2 d hd)⟩

theorem notMem (h : IsIdentifier name) {c : Char} (hl : isNameLetter c = false)
    (hd : Chars.isDecimal c = false) : c ∉ name.toList := by
  obtain ⟨c', r, hname, hc, hr⟩ := h
  rw [hname]
  intro hmem
  rcases List.mem_cons.1 hmem with rfl | hmem
  · simp [hl] at hc
  · simpa [hl, hd] using hr c hmem

theorem noDot (h : IsIdentifier name) : '.' ∉ name.toList :=
  h.notMem (by decide) (by decide)

theorem noBracket (h : IsIdentifier name) : '[' ∉ name.toList :=
  h.notMem (by decide) (by decide)

theorem noStar (h : IsIdentifier name) : '*' ∉ name.toList :=
  h.notMem (by decide) (by decide)

theorem ne_nil (h : IsIdentifier name) : name.toList ≠ [] := by
  obtain ⟨c, r, hname, -, -⟩ := h
  exact hname ▸ List.cons_ne_nil c r

end IsIdentifier

/-! ## Types of fields -/

/-- The text of a type behind stars, slices and stars again. -/
def fieldType (stars slices inner : ℕ) (name : String) : String :=
  Text.repeated stars "*" ++ Text.repeated slices "[]" ++ Text.repeated inner "*" ++ name

theorem dropStars_replicate (n : ℕ) (t : List Char) :
    dropStars ((List.replicate n ['*']).flatten ++ t) = dropStars t := by
  induction n with
  | zero => rfl
  | succ n ih => exact ih

theorem dropSlices_replicate (n : ℕ) (t : List Char) :
    dropSlices ((List.replicate n ['[', ']']).flatten ++ t) = dropSlices t := by
  induction n with
  | zero => rfl
  | succ n ih => exact ih

theorem dropStars_of_notMem {t : List Char} (h : '*' ∉ t) : dropStars t = t := by
  cases t with
  | nil => rfl
  | cons c r =>
    exact List.dropWhile_cons_of_neg (by simpa using Ne.symm (List.ne_of_not_mem_cons h))

theorem dropSlices_of_notMem {t : List Char} (h : '[' ∉ t) : dropSlices t = t := by
  rw [dropSlices.eq_def]
  split
  · exact absurd List.mem_cons_self h
  · rfl

/-- Nothing is left in front of the name. -/
theorem strip_fieldType {name : String} (hs : '*' ∉ name.toList) (hb : '[' ∉ name.toList)
    (stars slices inner : ℕ) :
    dropStars (dropSlices (dropStars (fieldType stars slices inner name).toList)) =
      name.toList := by
  have hlist : (fieldType stars slices inner name).toList =
      (List.replicate stars ['*']).flatten ++ ((List.replicate slices ['[', ']']).flatten ++
        ((List.replicate inner ['*']).flatten ++ name.toList)) := by
    simp only [fieldType, String.toList_append, Text.toList_repeated, List.append_assoc]
    rfl
  rw [hlist, dropStars_replicate]
  cases slices with
  | zero =>
    rw [List.replicate_zero, List.flatten_nil, List.nil_append, dropStars_replicate,
      dropStars_of_notMem hs, dropSlices_of_notMem hb, dropStars_of_notMem hs]
  | succ n =>
    -- The first bracket ends the stars, and then no bracket is left behind the slices.
    have hopen : ∀ r, dropStars ((List.replicate (n + 1) ['[', ']']).flatten ++ r) =
        (List.replicate (n + 1) ['[', ']']).flatten ++ r := fun _ => rfl
    have hinner : '[' ∉ (List.replicate inner ['*']).flatten ++ name.toList := by
      simpa using hb
    rw [hopen, dropSlices_replicate, dropSlices_of_notMem hinner, dropStars_replicate,
      dropStars_of_notMem hs]

/-! ## Types that are followed -/

/-- A name that is not followed, for what it contains. -/
def IsHidden (name : String) : Prop :=
  Text.contains "chan" name = true ∨ Text.startsWith "func" name = true

/-- Of all the texts that keep a type from being followed, an identifier can contain two. -/
theorem isOpaque_identifier {name : String} (h : IsIdentifier name) :
    isOpaque name = true ↔ IsHidden name := by
  have hdot : ∀ p : String, '.' ∈ p.toList → Text.contains p name = false := fun p hp =>
    Text.contains_eq_false hp h.noDot
  have hmap : Text.startsWith "map[" name = false := Bool.eq_false_iff.2 fun hp =>
    h.noBracket ((Text.startsWith_iff.1 hp).subset (by decide))
  rw [isOpaque, hmap, IsHidden]
  simp only [List.any_cons, List.any_nil, hdot "regexp.Regexp" (by decide),
    hdot "template.Template" (by decide), hdot "ast." (by decide), hdot "time." (by decide),
    Bool.false_or, Bool.or_false, Bool.or_eq_true]

theorem isHidden_of_prefix {s t : String} (h : s.toList <+: t.toList) (hs : IsHidden s) :
    isOpaque t = true := by
  rw [isOpaque]
  rcases hs with hs | hs
  · have ht : Text.contains "chan" t = true :=
      Text.contains_iff.2 ((Text.contains_iff.1 hs).trans h.isInfix)
    simp [ht]
  · have ht : Text.startsWith "func" t = true :=
      Text.startsWith_iff.2 ((Text.startsWith_iff.1 hs).trans h)
    simp [ht]

/-- A field refers to the type whose name its type wraps. -/
theorem localType?_fieldType {f : StructField} {name : String} {stars slices inner : ℕ}
    (htype : f.type = fieldType stars slices inner name) (hname : IsIdentifier name)
    (hbasic : name ∉ basicTypes) (hs : ¬IsHidden name) : f.localType? = some name := by
  have hopaque : isOpaque name = false :=
    Bool.eq_false_iff.2 fun h => hs ((isOpaque_identifier hname).1 h)
  have hbefore : beforeBracket name.toList = name.toList :=
    List.takeWhile_eq_self_iff.2 fun c hc => bne_iff_ne.2 fun heq => hname.noBracket (heq ▸ hc)
  rw [StructField.localType?, htype, relatedType?]
  simp only [strip_fieldType hname.noStar hname.noBracket, String.ofList_toList, hopaque,
    List.contains_eq_mem, hbasic, decide_false, Bool.or_false, Bool.false_eq_true, if_false,
    hbefore, Chars.cut?_singleton_eq_none.2 hname.noDot, List.isEmpty_iff, hname.ne_nil]

/-- A name of the same package is what stands before the first bracket of a type that is
followed. -/
theorem of_relatedType?_eq_local {type name : String}
    (h : relatedType? type = some (none, name)) :
    ∃ t, isOpaque (String.ofList t) = false ∧ name.toList = beforeBracket t := by
  refine ⟨dropStars (dropSlices (dropStars type.toList)), ?_⟩
  rw [relatedType?] at h
  dsimp only at h
  split at h
  · cases h
  · next hfollowed =>
    rw [Bool.or_eq_true, not_or] at hfollowed
    refine ⟨Bool.eq_false_iff.2 hfollowed.2, ?_⟩
    split at h
    · split at h
      · cases h
      · rw [← (Prod.mk.inj (Option.some.inj h)).2, String.toList_ofList]
    · split at h
      · cases h
      · cases (Prod.mk.inj (Option.some.inj h)).1

/-- No field refers to a type with a hidden name. -/
theorem not_isHidden_of_localType? {f : StructField} {name : String}
    (h : f.localType? = some name) : ¬IsHidden name := by
  have hrelated : relatedType? f.type = some (none, name) := by
    rw [StructField.localType?] at h
    split at h
    · next hn => rw [hn, Option.some.inj h]
    · cases h
  obtain ⟨t, hfollowed, hname⟩ := of_relatedType?_eq_local hrelated
  intro hs
  have hopaque : isOpaque (String.ofList t) = true := by
    refine isHidden_of_prefix ?_ hs
    rw [hname, String.toList_ofList]
    exact List.takeWhile_prefix _
  exact Bool.false_ne_true (hfollowed.symm.trans hopaque)

/-! ## Uses -/

/-- The relation from one struct to another one that a field of the first one stands for. -/
def Directory.use (d : Directory) (s t : Struct) (f : StructField) : Relation :=
  ⟨entityIn d.path .struct s.name, entityIn d.path .struct t.name, .uses, some f.name⟩

/-- A struct of a directory uses another one by a field whose type wraps the name of the other one,
unless that name contains `chan` or starts with `func`. -/
theorem uses_mem_graph_iff {p : Project} {d : Directory} (hd : d ∈ p.directories) {s t : Struct}
    (hs : s ∈ d.structs) (ht : t ∈ d.structs) {f : StructField} (hf : f ∈ s.fields)
    {stars slices inner : ℕ} (htype : f.type = fieldType stars slices inner t.name)
    (hname : IsIdentifier t.name) (hbasic : t.name ∉ basicTypes) :
    d.use s t f ∈ p.graph.relations ↔ s.name ≠ t.name ∧
      Text.contains "chan" t.name = false ∧ Text.startsWith "func" t.name = false := by
  have hhidden : ¬IsHidden t.name ↔
      Text.contains "chan" t.name = false ∧ Text.startsWith "func" t.name = false := by
    rw [IsHidden, not_or, Bool.not_eq_true, Bool.not_eq_true]
  have hkind : (d.use s t f).kind ≠ .contains := RelationKind.noConfusion
  rw [mem_relations_graph hkind, ← hhidden]
  constructor
  · rintro ⟨d', -, s', -, hmem⟩
    obtain ⟨f', -, t', -, hlocal, hne, hsource, htarget, -⟩ := uses_mem_relationsOf.1 hmem
    have hs' : s.name = s'.name := (Entity.mk.inj hsource).2.1
    have ht' : t.name = t'.name := (Entity.mk.inj htarget).2.1
    rw [hs', ht']
    exact ⟨hne.symm, not_isHidden_of_localType? hlocal⟩
  · rintro ⟨hne, hshown⟩
    exact ⟨d, hd, s, hs, uses_mem_relationsOf.2
      ⟨f, hf, t, ht, localType?_fieldType htype hname hbasic hshown, hne.symm, rfl, rfl, rfl⟩⟩

/-- An order, with its seller and its buyers. -/
def sampleOrder : Struct where
  name := "Order"
  fields := [{ name := "Seller", type := "*Merchant" }, { name := "Buyers", type := "[]*Customer" }]

/-- A directory with orders, merchants and customers. -/
def sampleShop : Directory where
  path := "shop"
  files := [{ name := "shop/shop.go", package := "shop"
              structs := [sampleOrder, { name := "Merchant" }, { name := "Customer" }] }]

/-- Orders use customers. -/
theorem uses_mem_graph_customer :
    sampleShop.use sampleOrder { name := "Customer" } { name := "Buyers", type := "[]*Customer" } ∈
      (Project.mk [sampleShop]).graph.relations :=
  (uses_mem_graph_iff List.mem_cons_self (by decide +kernel) (by decide +kernel)
    (by decide +kernel) (show _ = fieldType 0 1 1 _ by decide +kernel)
    (.of_all (by decide) (by decide)) (by decide +kernel)).2 (by decide +kernel)

/-- That the name of merchants contains `chan` keeps orders from using them. -/
theorem uses_hidden :
    ¬∀ (p : Project) (d : Directory) (s t : Struct) (f : StructField) (stars slices inner : ℕ),
      d ∈ p.directories → s ∈ d.structs → t ∈ d.structs → s.name ≠ t.name → f ∈ s.fields →
      f.type = fieldType stars slices inner t.name → IsIdentifier t.name →
      t.name ∉ basicTypes → d.use s t f ∈ p.graph.relations := by
  intro h
  have hmem := h ⟨[sampleShop]⟩ sampleShop sampleOrder { name := "Merchant" }
    { name := "Seller", type := "*Merchant" } 1 0 0 List.mem_cons_self (by decide +kernel)
    (by decide +kernel) (by decide +kernel) (by decide +kernel) (by decide +kernel) (.of_all (by decide) (by decide)) (by decide +kernel)
  revert hmem
  decide +kernel

end Atlas.Golang
