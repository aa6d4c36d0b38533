import Atlas.Proofs.Kubernetes.Inventory
import Atlas.Proofs.Words

/-!
# Documents of a manifest

A text is cut into lines that each keep their line feed (`AreLines`), and its documents are the
lines between those that separate (`splitDocuments_eq`). So nothing is lost: the documents with the
separators between them are the text (`putBack_splitDocuments`), and each holds whole lines, none of
which separates (`not_separates_of_mem_splitDocuments`). Two texts with a separator between them
have the documents of both (`splitDocuments_append`).

What a document declares does not depend on the manifest that it stands in nor on its number there
(`Decoder.anywhere_read?`). So one manifest and two parts of it register the same resources, apart
from where they stand (`Inventory.anywhere_readManifest_append`).
-/

set_option linter.unusedSectionVars false

namespace Atlas.Kubernetes

variable {l s : List Char} {ls : List (List Char)}

/-! ## Lines -/

/-- Lines of a text, each ended by its only line feed but perhaps the last one. -/
inductive AreLines : List (List Char) → Prop
  | nil : AreLines []
  | last {l : List Char} (hne : l ≠ []) (hl : '\n' ∉ l) : AreLines [l]
  | cons {l : List Char} {ls : List (List Char)} (hl : '\n' ∉ l) (hls : AreLines ls) :
      AreLines ((l ++ ['\n']) :: ls)

theorem areLines_inclusiveLines (s : List Char) : AreLines (inclusiveLines s) := by
  induction s with
  | nil => exact .nil
  | cons c r ih =>
    rw [inclusiveLines]
    split_ifs with hc
    · exact hc ▸ .cons List.not_mem_nil ih
    have hcons : ∀ {l : List Char}, '\n' ∉ l → '\n' ∉ c :: l := fun hl =>
      mt List.mem_cons.1 (not_or.2 ⟨Ne.symm hc, hl⟩)
    generalize inclusiveLines r = ls at ih
    cases ih with
    | nil => exact .last (List.cons_ne_nil _ _) (hcons List.not_mem_nil)
    | last hne hl => exact .last (List.cons_ne_nil _ _) (hcons hl)
    | cons hl hls => exact .cons (hcons hl) hls

theorem inclusiveLines_append_feed (hl : '\n' ∉ l) (s : List Char) :
    inclusiveLines (l ++ '\n' :: s) = (l ++ ['\n']) :: inclusiveLines s := by
  induction l with
  | nil => rw [List.nil_append, inclusiveLines, if_pos rfl, List.nil_append]
  | cons c l ih =>
    obtain ⟨hc, hl⟩ := not_or.1 (mt List.mem_cons.2 hl)
    rw [List.cons_append, inclusiveLines, if_neg (Ne.symm hc), ih hl]
    rfl

theorem inclusiveLines_of_notMem (hne : l ≠ []) (hl : '\n' ∉ l) : inclusiveLines l = [l] := by
  induction l with
  | nil => exact absurd rfl hne
  | cons c l ih =>
    obtain ⟨hc, hl⟩ := not_or.1 (mt List.mem_cons.2 hl)
    rw [inclusiveLines, if_neg (Ne.symm hc)]
    cases l with
    | nil => rfl
    | cons d l => rw [ih (List.cons_ne_nil d l) hl]

/-- Lines that are put together are cut there again. -/
theorem AreLines.inclusiveLines_flatten (h : AreLines ls) : inclusiveLines ls.flatten = ls := by
  induction h with
  | nil => rfl
  | last hne hl => rw [List.flatten_singleton, inclusiveLines_of_notMem hne hl]
  | cons hl hls ih =>
    rw [List.flatten_cons, List.append_assoc, List.singleton_append,
      inclusiveLines_append_feed hl, ih]

/-- The text is empty or ends with a line feed. -/
def EndsLine (s : List Char) : Prop :=
  s = [] ∨ s.getLast? = some '\n'

instance (s : List Char) : Decidable (EndsLine s) :=
  inferInstanceAs (Decidable (s = [] ∨ s.getLast? = some '\n'))

/-- All lines of the text are ended. -/
theorem EndsLine.areLines_append (hs : EndsLine s) {ms : List (List Char)} (hms : AreLines ms) :
    AreLines (inclusiveLines s ++ ms) := by
  have hls := areLines_inclusiveLines s
  have hflat := flatten_inclusiveLines s
  generalize inclusiveLines s = ls at hls hflat
  induction hls generalizing s with
  | nil => exact hms
  | last hne hl =>
    rw [List.flatten_singleton] at hflat
    obtain rfl := hflat
    exact absurd (List.mem_of_getLast? (hs.resolve_left hne)) hl
  | @cons l ls hl hls ih =>
    have hne : s ≠ [] := by simp [← hflat]
    have hrest : EndsLine ls.flatten := or_iff_not_imp_left.2 fun hnil => by
      rw [← List.getLast?_append_of_ne_nil (l ++ ['\n']) hnil, ← List.flatten_cons, hflat]
      exact hs.resolve_left hne
    exact .cons hl (ih hrest rfl)

/-- The lines of two texts are those of both, if the first one does not end within a line. -/
theorem inclusiveLines_append (ha : EndsLine s) (t : List Char) :
    inclusiveLines (s ++ t) = inclusiveLines s ++ inclusiveLines t := by
  rw [← (ha.areLines_append (areLines_inclusiveLines t)).inclusiveLines_flatten,
    List.flatten_append, flatten_inclusiveLines, flatten_inclusiveLines]

/-! ## Separators -/

/-- The line, without blanks at its end, is three dashes, or it starts with three dashes and a
space. -/
def Separates (l : List Char) : Prop :=
  Chars.trimEnd l = "---".toList ∨ "--- ".toList <+: l

/-- A line that starts with dashes and a space starts so without the blanks at its end too, or
there are blanks only behind the dashes. -/
theorem isSeparator_iff : isSeparator l = true ↔ Separates l := by
  rw [isSeparator, Bool.or_eq_true, beq_iff_eq, Chars.startsWith, List.isPrefixOf_iff_prefix]
  constructor
  · exact Or.imp_right fun h => h.trans (Chars.isPrefix_trimEndWhile _ _)
  · rintro (h | ⟨r, rfl⟩)
    · exact Or.inl h
    · have htrim : Chars.trimEnd ("--- ".toList ++ r) =
          '-' :: '-' :: '-' :: Chars.trimEnd (' ' :: r) := by
        change Chars.trimEnd ('-' :: '-' :: '-' :: ' ' :: r) = _
        simp only [Chars.trimEnd_cons_of_not_isBlank (show Chars.isBlank '-' = false by decide)]
      rw [htrim, Chars.trimEnd_cons]
      split_ifs
      · exact Or.inl rfl
      · exact Or.inr ⟨_, rfl⟩

instance (l : List Char) : Decidable (Separates l) :=
  decidable_of_iff _ isSeparator_iff

/-- The lines of a text that separate its documents. -/
def separators (s : List Char) : List (List Char) :=
  (inclusiveLines s).filter fun l => Separates l

/-! ## Documents -/

theorem documentsOf_eq (ls : List (List Char)) :
    documentsOf ls = (ls.splitOnP isSeparator).map List.flatten := by
  induction ls with
  | nil => rfl
  | cons l ls ih =>
    obtain ⟨g, gs, hg⟩ := List.exists_cons_of_ne_nil (List.splitOnP_ne_nil isSeparator ls)
    rw [documentsOf, List.splitOnP_cons_eq_if_modifyHead, ih, hg]
    split_ifs <;> rfl

/-- The documents of a text are its lines between the separators. -/
theorem splitDocuments_eq (s : List Char) :
    splitDocuments s = ((inclusiveLines s).splitOnP isSeparator).map List.flatten :=
  documentsOf_eq _

/-- The documents, each but the last one with the separator behind it. -/
def putBack (docs seps : List (List Char)) : List Char :=
  (List.zipWith (· ++ ·) docs (seps ++ [[]])).flatten

theorem separators_eq (s : List Char) : separators s = (inclusiveLines s).filter isSeparator :=
  List.filter_congr fun l _ => by rw [← Bool.coe_iff_coe, isSeparator_iff, decide_eq_true_iff]

/-- The documents with the separators between them are the text. -/
theorem putBack_splitDocuments (s : List Char) : putBack (splitDocuments s) (separators s) = s := by
  have hseps : separators s ++ [[]] =
      ((separators s).map (fun l => [l]) ++ [[]]).map List.flatten := by
    simp [Function.comp_def]
  have happend : ∀ (gs seps : List (List (List Char))),
      List.zipWith (· ++ ·) (gs.map List.flatten) (seps.map List.flatten) =
        (List.zipWith (· ++ ·) gs seps).map List.flatten := fun gs seps => by
    simp [List.zipWith_map, List.map_zipWith]
  rw [putBack, splitDocuments_eq, hseps, happend, ← List.flatten_flatten, separators_eq,
    List.splitOnP_spec, flatten_inclusiveLines]

/-- There is one document more than separators. -/
theorem length_splitDocuments (s : List Char) :
    (splitDocuments s).length = (separators s).length + 1 := by
  rw [splitDocuments_eq, separators_eq, List.length_map]
  induction inclusiveLines s with
  | nil => rfl
  | cons l ls ih =>
    rw [List.splitOnP_cons_eq_if_modifyHead, List.filter_cons]
    split_ifs <;> simp [ih]

theorem areLines_of_mem_splitOnP (h : AreLines ls) {g : List (List Char)}
    (hg : g ∈ ls.splitOnP isSeparator) : AreLines g ∧ ∀ l ∈ g, ¬Separates l := by
  have hplain : ∀ {l : List Char}, ¬isSeparator l = true → ¬Separates l := mt isSeparator_iff.2
  induction h generalizing g with
  | nil =>
    obtain rfl := List.mem_singleton.1 hg
    exact ⟨.nil, List.forall_mem_nil _⟩
  | @last l hne hl =>
    rw [List.splitOnP_cons_eq_if_modifyHead] at hg
    split_ifs at hg with hsep
    · obtain rfl : g = [] := by simpa using hg
      exact ⟨.nil, List.forall_mem_nil _⟩
    · obtain rfl : g = [l] := by simpa using hg
      exact ⟨.last hne hl, List.forall_mem_singleton.2 (hplain hsep)⟩
  | @cons l ls hl hls ih =>
    rw [List.splitOnP_cons_eq_if_modifyHead] at hg
    split_ifs at hg with hsep
    · rcases List.mem_cons.1 hg with rfl | hg
      · exact ⟨.nil, List.forall_mem_nil _⟩
      · exact ih hg
    · obtain ⟨g', gs, hsplit⟩ := List.exists_cons_of_ne_nil (List.splitOnP_ne_nil isSeparator ls)
      rw [hsplit, List.modifyHead_cons] at hg
      rcases List.mem_cons.1 hg with rfl | hg
      · obtain ⟨hlines, hseparates⟩ := ih (hsplit ▸ List.mem_cons_self)
        exact ⟨.cons hl hlines, List.forall_mem_cons.2 ⟨hplain hsep, hseparates⟩⟩
      · exact ih (hsplit ▸ List.mem_cons_of_mem _ hg)

/-- No line of a document separates. -/
theorem not_separates_of_mem_splitDocuments {d : List Char} (hd : d ∈ splitDocuments s) :
    ∀ l ∈ inclusiveLines d, ¬Separates l := by
  rw [splitDocuments_eq] at hd
  obtain ⟨g, hg, rfl⟩ := List.mem_map.1 hd
  obtain ⟨hlines, hseparates⟩ := areLines_of_mem_splitOnP (areLines_inclusiveLines s) hg
  rwa [hlines.inclusiveLines_flatten]

/-- Two texts with a separator between them have the documents of both. -/
theorem splitDocuments_append {a : List Char} (ha : EndsLine a) (b : List Char) :
    splitDocuments (a ++ "---\n".toList ++ b) = splitDocuments a ++ splitDocuments b := by
  have hfeed : inclusiveLines ("---\n".toList ++ b) = "---\n".toList :: inclusiveLines b :=
    inclusiveLines_append_feed (l := "---".toList) (by decide) b
  rw [List.append_assoc, splitDocuments_eq, inclusiveLines_append ha, hfeed,
    List.splitOnP_append_cons _ _ (by decide), List.map_append, ← splitDocuments_eq,
    ← splitDocuments_eq]

/-! ## Resources apart from where they stand -/

/-- The resource without its source and the number of its document. -/
def Resource.anywhere (r : Resource) : Resource :=
  { r with source := "", document := 0 }

/-- The inventory without the sources and the numbers of documents. -/
def Inventory.anywhere (inv : Inventory) : Inventory :=
  { inv with resources := inv.resources.map Resource.anywhere }

theorem Resource.key_anywhere (r : Resource) : r.anywhere.key = r.key :=
  rfl

/-- What a document declares depends on its text only, but for where it stands. -/
theorem Decoder.anywhere_read? (dec : Decoder) (source : String) (document : ℕ)
    (text : List Char) : (dec.read? source document text).map Resource.anywhere =
      dec.read? "" 0 text := by
  rw [read?_eq, read?_eq]
  split_ifs
  · rfl
  cases dec.value? (String.ofList text) with
  | none => rfl
  | some v =>
    rw [Option.bind_some, Option.bind_some]
    cases v with
    | mapping es =>
      rw [resourceOf?_mapping, resourceOf?_mapping, Option.map_bind]
      refine congrArg _ (funext fun hd => ?_)
      rw [Function.comp_apply]
      split_ifs
      · rfl
      · rw [Option.map_map]
        rfl
    | _ => rfl

namespace Inventory

theorem anywhere_registerNew (inv : Inventory) (r : Resource) :
    (inv.registerNew r).anywhere = inv.anywhere.registerNew r.anywhere := by
  by_cases h : (inv.places.lookup r.key).isSome
  · simp [registerNew, register, anywhere, Resource.key_anywhere, h]
  · simp [registerNew, register, anywhere, Resource.key_anywhere, h]

theorem anywhere_readDocument (inv : Inventory) (dec : Decoder) (source : String) (document : ℕ)
    (text : List Char) : (inv.readDocument dec source document text).anywhere =
      inv.anywhere.readDocument dec "" 0 text := by
  unfold readDocument
  rw [← dec.anywhere_read? source document]
  cases dec.read? source document text with
  | none => rfl
  | some r => exact inv.anywhere_registerNew r

/-- What a manifest adds depends on its documents only, but for where they stand. -/
theorem anywhere_readManifest (inv : Inventory) (dec : Decoder) (source text : String) :
    (inv.readManifest dec source text).anywhere =
      (splitDocuments text.toList).foldl (fun inv d => inv.readDocument dec "" 0 d)
        inv.anywhere := by
  have hstep : ∀ (inv : Inventory) (d : List Char × ℕ), inv.anywhere.readDocument dec "" 0 d.1 =
      (inv.readDocument dec source d.2 d.1).anywhere := fun inv d =>
    (inv.anywhere_readDocument dec source d.2 d.1).symm
  conv_rhs => rw [← List.zipIdx_map_fst 0 (splitDocuments text.toList), List.foldl_map]
  exact (List.foldl_hom anywhere hstep).symm

/-- Two texts with a separator between them register what they do one after the other, but for
where it stands. -/
theorem anywhere_readManifest_append {a : String} (ha : EndsLine a.toList) (b : String)
    (inv : Inventory) (dec : Decoder) (source sourceA sourceB : String) :
    (inv.readManifest dec source (a ++ "---\n" ++ b)).anywhere =
      ((inv.readManifest dec sourceA a).readManifest dec sourceB b).anywhere := by
  rw [anywhere_readManifest, anywhere_readManifest, anywhere_readManifest, String.toList_append,
    String.toList_append, splitDocuments_append ha, List.foldl_append]

end Inventory

/-- How texts are cut into documents. Nothing of a text is lost, and its documents are what stands
between its separators. Two texts with a separator between them have the documents of both, and as
one manifest or as two they register the same resources, but for where these stand. -/
structure CutsDocuments : Prop where
  lines : ∀ s, AreLines (inclusiveLines s) ∧ (inclusiveLines s).flatten = s
  putBack : ∀ s, Kubernetes.putBack (splitDocuments s) (separators s) = s
  length : ∀ s, (splitDocuments s).length = (separators s).length + 1
  whole : ∀ s, ∀ d ∈ splitDocuments s, ∀ l ∈ inclusiveLines d, ¬Separates l
  append : ∀ a b, EndsLine a →
    splitDocuments (a ++ "---\n".toList ++ b) = splitDocuments a ++ splitDocuments b
  register : ∀ a b : String, EndsLine a.toList →
    ∀ (inv : Inventory) (dec : Decoder) (source sourceA sourceB : String),
      (inv.readManifest dec source (a ++ "---\n" ++ b)).anywhere =
        ((inv.readManifest dec sourceA a).readManifest dec sourceB b).anywhere

theorem documents_cut : CutsDocuments where
  lines s := ⟨areLines_inclusiveLines s, flatten_inclusiveLines s⟩
  putBack := putBack_splitDocuments
  length := length_splitDocuments
  whole _ _ := not_separates_of_mem_splitDocuments
  append _ b ha := splitDocuments_append ha b
  register _ b ha inv dec := Inventory.anywhere_readManifest_append ha b inv dec

theorem documents_cut_shop : EndsLine "kind: Namespace\n".toList ∧
    splitDocuments ("kind: Namespace\n".toList ++ "---\n".toList ++ "kind: Service\n".toList) =
      ["kind: Namespace\n".toList, "kind: Service\n".toList] :=
  ⟨by decide, (documents_cut.append _ _ (by decide)).trans (by decide)⟩

end Atlas.Kubernetes
