import Atlas.Kubernetes.Manifest
import Atlas.Proofs.Firsts
import Mathlib.Data.List.Nodup

/-!
# The inventory of manifests

The manifests that are read one after another are one sequence of numbered documents
(`documents`), and reading them is one fold over it (`readManifests_eq`). A document adds the
resource it declares unless the key of that is taken; it adds nothing exactly if it is passed over
(`read_eq_self_iff`). So the inventory holds, in order, the first resource of each key
(`resources_readAll`) and finds each of them by its key (`Indexed.get?_eq_find?`).
-/

set_option linter.unusedSectionVars false

namespace Atlas.Kubernetes

open Yaml (Value)

/-! ## Documents that are passed over -/

/-- A document of a manifest, with its place among the documents there. -/
structure ManifestDocument where
  source : String
  number : ℕ
  text : List Char

namespace Decoder

variable (dec : Decoder)

/-- The resource that a document declares. -/
def resource? (d : ManifestDocument) : Option Resource :=
  dec.read? d.source d.number d.text

/-- Why a text declares no resource. -/
inductive Undeclared (text : List Char) : Prop
  | blank (h : Chars.trim text = [])
  | unreadable (h : dec.value? (String.ofList text) = none)
  | noMapping {v} (h : dec.value? (String.ofList text) = some v) (hv : ∀ es, v ≠ .mapping es)
  | badHeader {v} (h : dec.value? (String.ofList text) = some v) (hv : dec.header? v = none)
  | kindless {v hd} (h : dec.value? (String.ofList text) = some v) (hv : dec.header? v = some hd)
      (hk : hd.kind = "")
  | nameless {v hd} (h : dec.value? (String.ofList text) = some v) (hv : dec.header? v = some hd)
      (hn : hd.name = "")
  | badSpec {v hd} (h : dec.value? (String.ofList text) = some v) (hv : dec.header? v = some hd)
      (hs : dec.spec? hd.kind hd.spec = none)

theorem resourceOf?_mapping (source : String) (document : ℕ) (es : List (Value × Value)) :
    dec.resourceOf? source document (.mapping es) = (dec.header? (.mapping es)).bind fun hd =>
      if hd.kind = "" ∨ hd.name = "" then none
      else (dec.spec? hd.kind hd.spec).map fun spec =>
        { name := hd.name, kind := hd.kind, ns := hd.ns, labels := hd.labels, spec, source,
          document } := by
  simp only [resourceOf?]
  cases dec.header? (.mapping es) with
  | none => rfl
  | some hd =>
    simp only [Option.bind_some, Option.bind_eq_bind]
    split_ifs
    · rfl
    · cases dec.spec? hd.kind hd.spec <;> rfl

/-- A value declares a resource if it is a mapping whose header and specification can be read and
that has a kind and a name. -/
theorem resourceOf?_eq_none_iff (source : String) (document : ℕ) (v : Value) :
    dec.resourceOf? source document v = none ↔
      (∀ es, v ≠ .mapping es) ∨ dec.header? v = none ∨ ∃ hd, dec.header? v = some hd ∧
        (hd.kind = "" ∨ hd.name = "" ∨ dec.spec? hd.kind hd.spec = none) := by
  by_cases hm : ∀ es, v ≠ .mapping es
  · refine ⟨fun _ => Or.inl hm, fun _ => ?_⟩
    unfold resourceOf?
    split
    · exact absurd rfl (hm _)
    · rfl
  · obtain ⟨es, rfl⟩ : ∃ es, v = .mapping es := by simpa using hm
    rw [resourceOf?_mapping]
    cases dec.header? (.mapping es) with
    | none => simp
    | some hd =>
      by_cases hkn : hd.kind = "" ∨ hd.name = ""
      · simpa [hkn] using hkn.imp_right Or.inl
      · obtain ⟨hk, hn⟩ := not_or.1 hkn
        simp [hk, hn]

theorem read?_eq (source : String) (document : ℕ) (text : List Char) :
    dec.read? source document text = if Chars.trim text = [] then none
      else (dec.value? (String.ofList text)).bind (dec.resourceOf? source document) := by
  unfold read?
  split_ifs <;> rfl

theorem read?_eq_none_iff (source : String) (document : ℕ) (text : List Char) :
    dec.read? source document text = none ↔ dec.Undeclared text := by
  rw [read?_eq]
  by_cases hb : Chars.trim text = []
  · exact ⟨fun _ => .blank hb, fun _ => if_pos hb⟩
  rw [if_neg hb]
  cases hv : dec.value? (String.ofList text) with
  | none => exact ⟨fun _ => .unreadable hv, fun _ => rfl⟩
  | some v =>
    rw [Option.bind_some, resourceOf?_eq_none_iff]
    constructor
    · rintro (hm | hh | ⟨hd, hh, hk | hn | hs⟩)
      · exact .noMapping hv hm
      · exact .badHeader hv hh
      · exact .kindless hv hh hk
      · exact .nameless hv hh hn
      · exact .badSpec hv hh hs
    · rintro (h | h | ⟨h, hm⟩ | ⟨h, hh⟩ | ⟨h, hh, hk⟩ | ⟨h, hh, hn⟩ | ⟨h, hh, hs⟩)
      · exact absurd h hb
      · exact absurd (hv.symm.trans h) (by simp)
      all_goals obtain rfl := Option.some.inj (hv.symm.trans h)
      · exact Or.inl hm
      · exact Or.inr (Or.inl hh)
      · exact Or.inr (Or.inr ⟨_, hh, Or.inl hk⟩)
      · exact Or.inr (Or.inr ⟨_, hh, Or.inr (Or.inl hn)⟩)
      · exact Or.inr (Or.inr ⟨_, hh, Or.inr (Or.inr hs)⟩)

/-- A document declares what its header and its specification say. -/
theorem exists_of_read? {source : String} {document : ℕ} {text : List Char} {r : Resource}
    (h : dec.read? source document text = some r) :
    ∃ (hd : Header) (spec : Spec), dec.spec? hd.kind hd.spec = some spec ∧
      r = { name := hd.name, kind := hd.kind, ns := hd.ns, labels := hd.labels, spec, source,
            document } := by
  rw [read?_eq] at h
  split_ifs at h
  obtain ⟨v, -, hv⟩ := Option.bind_eq_some_iff.1 h
  cases v with
  | mapping es =>
    rw [resourceOf?_mapping] at hv
    obtain ⟨hd, -, hr⟩ := Option.bind_eq_some_iff.1 hv
    split_ifs at hr
    obtain ⟨spec, hspec, rfl⟩ := Option.map_eq_some_iff.1 hr
    exact ⟨hd, spec, hspec, rfl⟩
  | _ => simp [resourceOf?] at hv

/-- A resource names the manifest and the place of its document. -/
theorem source_of_read? {source : String} {document : ℕ} {text : List Char} {r : Resource}
    (h : dec.read? source document text = some r) :
    r.source = source ∧ r.document = document := by
  obtain ⟨hd, spec, -, rfl⟩ := dec.exists_of_read? h
  exact ⟨rfl, rfl⟩

end Decoder

namespace Inventory

/-! ## Registration -/

/-- The keys of the resources, in order. -/
def keys (inv : Inventory) : List ResourceKey :=
  inv.resources.map Resource.key

/-- The places are those of the keys. -/
def Indexed (inv : Inventory) : Prop :=
  inv.places.Indexes inv.keys

theorem indexed_empty : empty.Indexed :=
  Places.Indexes.nil

theorem registerNew_of_mem {inv : Inventory} (h : inv.Indexed) {r : Resource}
    (hr : r.key ∈ inv.keys) : inv.registerNew r = inv := by
  cases hl : inv.places.lookup r.key with
  | none => exact absurd hr (h.lookup_eq_none_iff.1 hl)
  | some i => simp [registerNew, register, hl]

theorem registerNew_of_not_mem {inv : Inventory} (h : inv.Indexed) {r : Resource}
    (hr : r.key ∉ inv.keys) : inv.registerNew r =
      ⟨inv.resources ++ [r], (r.key, inv.resources.length) :: inv.places⟩ := by
  simp [registerNew, register, h.lookup_eq_none_iff.2 hr]

theorem resources_registerNew {inv : Inventory} (h : inv.Indexed) (r : Resource) :
    (inv.registerNew r).resources = concatNew Resource.key inv.resources r := by
  by_cases hr : r.key ∈ inv.keys
  · rw [registerNew_of_mem h hr]
    exact (if_pos hr).symm
  · rw [registerNew_of_not_mem h hr]
    exact (if_neg hr).symm

namespace Indexed

variable {inv : Inventory}

theorem registerNew (h : inv.Indexed) (r : Resource) : (inv.registerNew r).Indexed := by
  by_cases hr : r.key ∈ inv.keys
  · rwa [registerNew_of_mem h hr]
  · have hlen : inv.resources.length = inv.keys.length := (List.length_map _).symm
    rw [registerNew_of_not_mem h hr, Indexed, keys, List.map_append, hlen]
    exact Places.Indexes.concat h (h.lookup_eq_none_iff.2 hr)

/-- The resource found by a key is the only one that has it. -/
theorem get?_eq_find? (h : inv.Indexed) (key : ResourceKey) :
    inv.get? key = inv.resources.find? (·.key = key) := by
  cases hl : inv.places.lookup key with
  | none =>
    have hk := h.lookup_eq_none_iff.1 hl
    rw [Inventory.get?, hl, Option.bind_none, eq_comm, List.find?_eq_none]
    exact fun r hr => by simpa using fun he => hk (List.mem_map.2 ⟨r, hr, he⟩)
  | some i =>
    have hi := (h key i).1 hl
    rw [keys, List.getElem?_map] at hi
    obtain ⟨r, hr, hrk⟩ := Option.map_eq_some_iff.1 hi
    rw [Inventory.get?, hl, Option.bind_some, hr, eq_comm]
    obtain ⟨s, hs⟩ : ∃ s, inv.resources.find? (·.key = key) = some s :=
      Option.isSome_iff_exists.1 (List.find?_isSome.2 ⟨r, List.mem_of_getElem? hr, by simpa⟩)
    have hsk : s.key = key := by simpa using List.find?_some hs
    rw [hs, List.inj_on_of_nodup_map h.nodup (List.mem_of_find?_eq_some hs)
      (List.mem_of_getElem? hr) (hsk.trans hrk.symm)]

end Indexed

/-! ## Reading documents -/

section Reading

variable (dec : Decoder)

/-- The inventory with the resource that a document declares, if there is one. -/
def read (inv : Inventory) (d : ManifestDocument) : Inventory :=
  inv.readDocument dec d.source d.number d.text

/-- The inventory with the resources of some documents. -/
def readAll (inv : Inventory) (ds : List ManifestDocument) : Inventory :=
  ds.foldl (read dec) inv

/-- A document is passed over if it declares no resource or one whose key is taken. -/
def PassedOver (inv : Inventory) (d : ManifestDocument) : Prop :=
  dec.Undeclared d.text ∨ ∃ r, dec.resource? d = some r ∧ ∃ s ∈ inv.resources, s.key = r.key

/-- The documents of some manifests, each manifest with its source and its text. Every piece
between two separators counts, the blank ones too. -/
def documents (manifests : List (String × String)) : List ManifestDocument :=
  manifests.flatMap fun (source, text) =>
    (splitDocuments text.toList).zipIdx.map fun (d, i) => ⟨source, i, d⟩

/-- The inventory with the resources of some manifests. -/
def readManifests (inv : Inventory) (manifests : List (String × String)) : Inventory :=
  manifests.foldl (fun inv (source, text) => inv.readManifest dec source text) inv

end Reading

variable {dec : Decoder}

theorem read_of_none {d : ManifestDocument} (hd : dec.resource? d = none) (inv : Inventory) :
    inv.read dec d = inv := by
  have hd : dec.read? d.source d.number d.text = none := hd
  simp [read, readDocument, hd]

theorem read_of_some {d : ManifestDocument} {r : Resource} (hd : dec.resource? d = some r)
    (inv : Inventory) : inv.read dec d = inv.registerNew r := by
  have hd : dec.read? d.source d.number d.text = some r := hd
  simp [read, readDocument, hd]

/-- A document leaves the inventory as it is exactly if it is passed over. -/
theorem read_eq_self_iff {inv : Inventory} (h : inv.Indexed) (d : ManifestDocument) :
    inv.read dec d = inv ↔ inv.PassedOver dec d := by
  cases hd : dec.resource? d with
  | none =>
    rw [read_of_none hd]
    exact ⟨fun _ => Or.inl ((dec.read?_eq_none_iff _ _ _).1 hd), fun _ => rfl⟩
  | some r =>
    have hdecl : ¬dec.Undeclared d.text := fun hu => by
      have := (dec.read?_eq_none_iff d.source d.number d.text).2 hu
      exact absurd (hd.symm.trans this) (by simp)
    have hover : inv.PassedOver dec d ↔ r.key ∈ inv.keys := by
      simp [PassedOver, hdecl, hd, keys]
    rw [read_of_some hd, hover]
    constructor
    · intro heq
      by_contra hr
      rw [registerNew_of_not_mem h hr] at heq
      have := congrArg (fun inv => inv.resources.length) heq
      simp at this
    · exact registerNew_of_mem h

theorem Indexed.read {inv : Inventory} (h : inv.Indexed) (d : ManifestDocument) :
    (inv.read dec d).Indexed := by
  cases hd : dec.resource? d with
  | none => rwa [read_of_none hd]
  | some r =>
    rw [read_of_some hd]
    exact h.registerNew r

theorem Indexed.readAll {inv : Inventory} (h : inv.Indexed) (ds : List ManifestDocument) :
    (inv.readAll dec ds).Indexed := by
  induction ds generalizing inv with
  | nil => exact h
  | cons d ds ih => exact ih (h.read d)

theorem resources_readAll {inv : Inventory} (h : inv.Indexed) (ds : List ManifestDocument) :
    (inv.readAll dec ds).resources =
      (ds.filterMap dec.resource?).foldl (concatNew Resource.key) inv.resources := by
  induction ds generalizing inv with
  | nil => rfl
  | cons d ds ih =>
    refine (ih (h.read d)).trans ?_
    cases hd : dec.resource? d with
    | none => rw [List.filterMap_cons_none hd, read_of_none hd]
    | some r =>
      rw [List.filterMap_cons_some hd, read_of_some hd, resources_registerNew h, List.foldl_cons]

/-! ## Reading manifests -/

theorem readManifests_eq (manifests : List (String × String)) (inv : Inventory) :
    inv.readManifests dec manifests = inv.readAll dec (documents manifests) := by
  induction manifests generalizing inv with
  | nil => rfl
  | cons m ms ih =>
    rw [readAll, documents, List.flatMap_cons, List.foldl_append, List.foldl_map]
    exact ih _

/-- Every resource of the inventory was declared. -/
theorem exists_of_mem_readManifests {manifests : List (String × String)} {r : Resource}
    (h : r ∈ (empty.readManifests dec manifests).resources) :
    ∃ d ∈ documents manifests, dec.resource? d = some r := by
  have hnil : empty.resources = [] := rfl
  rw [readManifests_eq, resources_readAll indexed_empty, hnil, foldl_concatNew] at h
  exact List.mem_filterMap.1 ((firsts_sublist _ _).subset h)

theorem mem_documents {manifests : List (String × String)} {d : ManifestDocument} :
    d ∈ documents manifests ↔ ∃ text, (d.source, text) ∈ manifests ∧
      (splitDocuments text.toList)[d.number]? = some d.text := by
  obtain ⟨source, number, text⟩ := d
  simp only [documents, List.mem_flatMap, List.mem_map, Prod.exists]
  constructor
  · rintro ⟨_, t, hm, _, _, hd, ⟨⟩⟩
    exact ⟨t, hm, List.mem_zipIdx_iff_getElem?.1 hd⟩
  · rintro ⟨t, hm, hd⟩
    exact ⟨_, t, hm, _, _, List.mem_zipIdx_iff_getElem?.2 hd, rfl⟩

/-- For manifests that are read one after another, with no resource to begin with : the inventory
holds, in the order of the manifests and of their documents, the declared resources whose key did
not occur earlier; its places are those of their keys, and a key leads to the first resource that
has it and to none if there is none; every resource has the place of its document among all
documents of its manifest. A document changes nothing exactly if it is passed over, and then the
others add up to the same without it. -/
theorem readManifests_empty (dec : Decoder) (manifests : List (String × String)) :
    let inv := empty.readManifests dec manifests
    let declared := (documents manifests).filterMap dec.resource?
    inv.resources = firsts Resource.key declared ∧
      (∀ key i, inv.places.lookup key = some i ↔ inv.keys[i]? = some key) ∧
      (∀ key, inv.get? key = declared.find? (·.key = key)) ∧
      (∀ r ∈ inv.resources, ∃ text d, (r.source, text) ∈ manifests ∧
        (splitDocuments text.toList)[r.document]? = some d ∧
        dec.read? r.source r.document d = some r) ∧
      ∀ before d after, documents manifests = before ++ d :: after →
        ((empty.readAll dec before).read dec d = empty.readAll dec before ↔
          (empty.readAll dec before).PassedOver dec d) ∧
        ((empty.readAll dec before).PassedOver dec d →
          empty.readAll dec (before ++ after) = inv) := by
  intro inv declared
  have hinv : inv = empty.readAll dec (documents manifests) := readManifests_eq manifests empty
  have h : inv.Indexed := hinv ▸ indexed_empty.readAll _
  have hres : inv.resources = firsts Resource.key declared := by
    rw [hinv, resources_readAll indexed_empty]
    exact foldl_concatNew Resource.key declared
  refine ⟨hres, h, fun key => ?_, fun r hr => ?_, fun before d after hdocs => ?_⟩
  · rw [h.get?_eq_find?, hres, find?_firsts]
  · have hr : r ∈ declared := (firsts_sublist _ _).subset (hres ▸ hr)
    obtain ⟨d, hd, hdr⟩ := List.mem_filterMap.1 hr
    obtain ⟨text, hm, htext⟩ := mem_documents.1 hd
    obtain ⟨hs, hn⟩ := dec.source_of_read? hdr
    exact ⟨text, d.text, hs ▸ hm, hn ▸ htext, hs ▸ hn ▸ hdr⟩
  · have hb : (empty.readAll dec before).Indexed := indexed_empty.readAll before
    refine ⟨read_eq_self_iff hb d, fun hp => ?_⟩
    rw [hinv, hdocs, readAll, readAll, List.foldl_append, List.foldl_append, List.foldl_cons]
    exact congrArg (fun inv => after.foldl (read dec) inv) ((read_eq_self_iff hb d).2 hp).symm

end Inventory

end Atlas.Kubernetes
