import Atlas.Docker.Compose
import Atlas.Proofs.Text
import Mathlib.Data.List.Nodup
import Mathlib.Data.Set.Function

/-!
# Short and long forms in compose files

A port is read from its label, and every text is the label of just one port that can be written so
(`Port.short_forms`).

Most fields of a service may be written in two ways, as texts or as mappings. What a value writes is
said here for each kind of field (`Port.Written`, `Mount.Written`, `Build.Written`,
`AssignmentsWritten`, `NamesWritten`), and it is what is read from the value, whatever its form.
So two bodies that write the same entries, each in one form or the other (`SameBody`), are read as
the same service (`Service.forms_agree`).
-/

set_option linter.unusedSectionVars false

namespace Atlas.Docker

open Yaml (Value)

/-! ## Labels of ports -/

namespace Port

variable {p : Port}

/-- A port that can be told from its label. -/
structure IsShort (p : Port) : Prop where
  container : ':' ∉ p.container.toList ∧ '/' ∉ p.container.toList
  host : ∀ h ∈ p.host, '/' ∉ h.toList

/-- The label of the port without its protocol. -/
def address (p : Port) : String :=
  (p.host.map (· ++ ":")).getD "" ++ p.container

theorem label_eq (p : Port) : p.label = p.address ++ (p.protocol.map ("/" ++ ·)).getD "" :=
  rfl

theorem toList_slash : "/".toList = ['/'] :=
  rfl

theorem toList_colon : ":".toList = [':'] :=
  rfl

/-- What stands in front of the first slash of a text is cut at its last colon. -/
theorem exists_ofText (t : String) : ∃ spec protocol, '/' ∉ spec.toList ∧
    t = spec ++ ((protocol : Option String).map ("/" ++ ·)).getD "" ∧
    ofText t = match Text.cutLast? ':' spec with
      | some (host, container) => { host := some host, container, protocol }
      | none => { container := spec, protocol } := by
  rw [ofText]
  cases hcut : Text.cut? "/" t with
  | none => exact ⟨t, none, (Text.cut?_eq_none toList_slash).1 hcut, by simp, rfl⟩
  | some parts =>
    obtain ⟨spec, protocol⟩ := parts
    obtain ⟨rfl, hspec⟩ := (Text.cut?_eq_some_iff toList_slash).1 hcut
    exact ⟨spec, some protocol, hspec, by simp [String.append_assoc], rfl⟩

theorem isShort_ofText (t : String) : (ofText t).IsShort ∧ (ofText t).label = t := by
  obtain ⟨spec, protocol, hspec, ht, hof⟩ := exists_ofText t
  rw [hof]
  cases hcut : Text.cutLast? ':' spec with
  | none => exact ⟨⟨⟨Text.cutLast?_eq_none.1 hcut, hspec⟩, by simp⟩, by simp [label, ht]⟩
  | some parts =>
    obtain ⟨host, container⟩ := parts
    obtain ⟨rfl, hcolon⟩ := (Text.cutLast?_eq_some_iff toList_colon).1 hcut
    simp only [String.toList_append, List.mem_append, not_or] at hspec
    exact ⟨⟨⟨hcolon, hspec.2⟩, by simpa using hspec.1.1⟩, by simp [label, ht]⟩

theorem slash_notMem_address (h : p.IsShort) : '/' ∉ p.address.toList := by
  cases hp : p.host with
  | none => simpa [address, hp] using h.container.2
  | some host => simpa [address, hp] using ⟨h.host host hp, h.container.2⟩

theorem cut?_label (h : p.IsShort) :
    Text.cut? "/" p.label = p.protocol.map fun protocol => (p.address, protocol) := by
  have haddress := slash_notMem_address h
  rw [label_eq]
  cases p.protocol with
  | none => exact (Text.cut?_eq_none toList_slash).2 (by simpa using haddress)
  | some protocol =>
    exact (Text.cut?_eq_some_iff toList_slash).2 ⟨by simp [String.append_assoc], haddress⟩

theorem cutLast?_address (h : p.IsShort) :
    Text.cutLast? ':' p.address = p.host.map fun host => (host, p.container) := by
  rw [address]
  cases p.host with
  | none => exact Text.cutLast?_eq_none.2 (by simpa using h.container.1)
  | some host => exact (Text.cutLast?_eq_some_iff toList_colon).2 ⟨by simp, h.container.1⟩

theorem ofText_label (h : p.IsShort) : ofText p.label = p := by
  have hcut := cut?_label h
  have hlast := cutLast?_address h
  obtain ⟨host, container, protocol⟩ := p
  cases protocol <;> cases host <;> simp_all [ofText, label, address]

/-- Every text writes a port, of which it is the label. A port with neither colon nor slash in its
container and no slash in its host is read from its label, so these ports and the texts correspond
one to one. -/
theorem short_forms :
    (∀ t, ∃ p, ofValue? (.text t) = some p ∧ p.label = t) ∧
    (∀ p, p.IsShort → ofValue? (.text p.label) = some p) ∧
    Set.BijOn label {p | p.IsShort} Set.univ := by
  refine ⟨fun t => ⟨ofText t, rfl, (isShort_ofText t).2⟩,
    fun p hp => congrArg some (ofText_label hp), ?_⟩
  have hinv : Set.InvOn ofText label {p | p.IsShort} Set.univ :=
    ⟨fun _ hp => ofText_label hp, fun t _ => (isShort_ofText t).2⟩
  exact hinv.bijOn (Set.mapsTo_univ _ _) fun t _ => (isShort_ofText t).1

/-- The last colon of the host is not the end of the host. -/
theorem short_forms_loopback :
    ofValue? (.text "[::1]:5432:5432/udp") = some ⟨some "[::1]:5432", "5432", some "udp"⟩ :=
  short_forms.2.1 ⟨some "[::1]:5432", "5432", some "udp"⟩ ⟨by decide, by simp⟩

end Port

/-! ## Entries of mappings -/

/-- The mapping has a scalar of this text under the key, or none. -/
def Says (es : Entries) (key : String) : Option String → Prop
  | some t => ∃ v, (.text key, v) ∈ es ∧ scalar? v = some t
  | none => ∀ v, (.text key, v) ∈ es → scalar? v = none

/-- No key stands in the mapping twice. -/
def DistinctKeys (es : Entries) : Prop :=
  (es.map Prod.fst).Nodup

theorem beq_text_iff {v : Value} {key : String} : (v == .text key) = true ↔ v = .text key := by
  cases v <;> simp [BEq.beq, Value.same]

variable {es : Entries} {key : String}

theorem lookup?_cons_of_eq {k : Value} (h : k = .text key) (v : Value) (es : Entries) :
    Value.lookup? ((k, v) :: es) key = some v := by
  simp [Value.lookup?, beq_text_iff.2 h]

theorem lookup?_cons_of_ne {k : Value} (h : k ≠ .text key) (v : Value) (es : Entries) :
    Value.lookup? ((k, v) :: es) key = Value.lookup? es key := by
  have hk : (k == .text key) = false := Bool.eq_false_iff.2 (mt beq_text_iff.1 h)
  simp [Value.lookup?, hk]

theorem mem_of_lookup? {v : Value} (h : Value.lookup? es key = some v) : (.text key, v) ∈ es := by
  obtain ⟨⟨k, v⟩, he, rfl⟩ := Option.map_eq_some_iff.1 h
  obtain rfl : k = .text key := beq_text_iff.1 (by simpa using List.find?_some he)
  exact List.mem_of_find?_eq_some he

theorem DistinctKeys.lookup?_eq_some_iff (hes : DistinctKeys es) {v : Value} :
    Value.lookup? es key = some v ↔ (.text key, v) ∈ es := by
  refine ⟨mem_of_lookup?, fun hv => ?_⟩
  cases hlookup : Value.lookup? es key with
  | none =>
    have hnone := List.find?_eq_none.1 (Option.map_eq_none_iff.1 hlookup) _ hv
    exact absurd (beq_text_iff.2 rfl) hnone
  | some w =>
    have hinj := List.inj_on_of_nodup_map hes (mem_of_lookup? hlookup) hv rfl
    rw [(Prod.mk.inj hinj).2]

theorem DistinctKeys.textOf?_eq (hes : DistinctKeys es) {t : Option String} (h : Says es key t) :
    textOf? es key = t := by
  cases t with
  | some t =>
    obtain ⟨v, hv, ht⟩ := h
    rw [textOf?, hes.lookup?_eq_some_iff.2 hv]
    exact ht
  | none =>
    rw [textOf?]
    cases hlookup : Value.lookup? es key with
    | none => rfl
    | some v => exact h v (mem_of_lookup? hlookup)

/-! ## What values write -/

/-- The value is the label of a port, or a mapping with its parts. -/
inductive Port.Written (p : Port) : Value → Prop
  | short {v : Value} (hp : p.IsShort) (hv : scalar? v = some p.label) : p.Written v
  | long {es : Entries} (hes : DistinctKeys es) (host : Says es "published" p.host)
      (container : Says es "target" (some p.container))
      (protocol : Says es "protocol" p.protocol) : p.Written (.mapping es)

/-- The value is a text with the parts of a mounted volume, or a mapping with these. A source that
is not given is empty. -/
inductive Mount.Written (m : Mount) : Value → Prop
  | target {v : Value} (hs : m.source = "") (hr : m.readOnly = false) (ht : ':' ∉ m.target.toList)
      (hv : scalar? v = some m.target) : m.Written v
  | short {v : Value} (hs : ':' ∉ m.source.toList) (ht : ':' ∉ m.target.toList)
      (hv : scalar? v =
        some (m.source ++ ":" ++ m.target ++ if m.readOnly then ":ro" else "")) : m.Written v
  | long {es : Entries} (hes : DistinctKeys es)
      (source : Says es "source" (some m.source) ∨ (Says es "source" none ∧ m.source = ""))
      (target : Says es "target" (some m.target))
      (readOnly : (.text "read_only", .bool m.readOnly) ∈ es ∨
        ((∀ v, (.text "read_only", v) ∉ es) ∧ m.readOnly = false)) : m.Written (.mapping es)

/-- The value is the context of a build that says nothing else, or a mapping with its parts. -/
inductive Build.Written (b : Build) : Value → Prop
  | short {v : Value} (hd : b.dockerfile = none) (ht : b.target = none)
      (hv : scalar? v = some b.context) : b.Written v
  | long {es : Entries} (hes : DistinctKeys es) (context : Says es "context" (some b.context))
      (dockerfile : Says es "dockerfile" b.dockerfile) (target : Says es "target" b.target) :
      b.Written (.mapping es)

/-- A variable that may be given without a value. -/
structure Assignment where
  key : String
  value : Option String

/-- How an assignment is written in a list. -/
def Assignment.label (a : Assignment) : String :=
  a.key ++ (a.value.map ("=" ++ ·)).getD ""

/-- The variable that is set, which is empty without a value. -/
def Assignment.variable (a : Assignment) : Variable :=
  ⟨a.key, a.value.getD ""⟩

/-- The entry of a mapping that sets a variable; one without a value is null. -/
structure Assignment.Entered (a : Assignment) (e : Value × Value) : Prop where
  key : scalar? e.1 = some a.key
  value : match a.value with
    | some v => scalar? e.2 = some v
    | none => e.2 = .null

/-- The value is a list of assignments, or a mapping with these. -/
inductive AssignmentsWritten (as : List Assignment) : Value → Prop
  | list {items : List Value} (has : ∀ a ∈ as, '=' ∉ a.key.toList)
      (hitems : items.map scalar? = as.map fun a => some a.label) :
      AssignmentsWritten as (.sequence items)
  | mapping {es : Entries} (hes : List.Forall₂ Assignment.Entered as es) :
      AssignmentsWritten as (.mapping es)

/-- The value is a list of names, or a mapping with these as keys. -/
inductive NamesWritten (names : List String) : Value → Prop
  | list {items : List Value} (hitems : items.map scalar? = names.map some) :
      NamesWritten names (.sequence items)
  | mapping {es : Entries} (hes : es.map (fun e => scalar? e.1) = names.map some) :
      NamesWritten names (.mapping es)

/-! ## What is read -/

variable {v w : Value}

theorem ne_mapping_of_scalar? {t : String} (h : scalar? v = some t) (es : Entries) :
    v ≠ .mapping es := by
  rintro rfl
  cases h

theorem Port.ofValue?_written {p : Port} (h : p.Written v) : ofValue? v = some p := by
  cases h with
  | short hp hv =>
    rw [ofValue?]
    · rw [hv, Option.map_some, ofText_label hp]
    · exact ne_mapping_of_scalar? hv
  | long hes host container protocol =>
    simp [ofValue?, hes.textOf?_eq host, hes.textOf?_eq container, hes.textOf?_eq protocol]

theorem Mount.ofValue?_written {m : Mount} (h : m.Written v) : ofValue? v = some m := by
  obtain ⟨source, target, readOnly⟩ := m
  cases h with
  | target hs hr ht hv =>
    obtain rfl : source = "" := hs
    obtain rfl : readOnly = false := hr
    rw [ofValue?]
    · rw [hv, Option.map_some, ofText, Text.splitOn_of_char_notMem ht]
    · exact ne_mapping_of_scalar? hv
  | short hs ht hv =>
    have hparts : Text.splitOn ':' (source ++ ":" ++ target) = [source, target] := by
      rw [Text.splitOn_append Port.toList_colon, Text.splitOn_of_char_notMem hs,
        Text.splitOn_of_char_notMem ht]
      rfl
    rw [ofValue?]
    · rw [hv, Option.map_some, ofText]
      cases readOnly with
      | false => simp [hparts]
      | true =>
        have hmode : Text.splitOn ':' (source ++ ":" ++ target ++ ":" ++ "ro") =
            [source, target, "ro"] := by
          rw [Text.splitOn_append Port.toList_colon, hparts]
          rfl
        have htext : source ++ ":" ++ target ++ ":ro" =
            source ++ ":" ++ target ++ ":" ++ "ro" := by
          simp [String.append_assoc]
        have hro : (Text.splitOn ',' "ro").contains "ro" = true := by decide
        simp only [if_true, htext, hmode, hro]
    · exact ne_mapping_of_scalar? hv
  | @long es hes hsource htarget hreadOnly =>
    have hs : (textOf? es "source").getD "" = source := by
      rcases hsource with hsource | ⟨hsource, rfl⟩
      · rw [hes.textOf?_eq hsource, Option.getD_some]
      · rw [hes.textOf?_eq hsource, Option.getD_none]
    rw [ofValue?, hs, hes.textOf?_eq htarget]
    rcases hreadOnly with hread | ⟨hread, rfl⟩
    · rw [hes.lookup?_eq_some_iff.2 hread]
      rfl
    · rw [Option.eq_none_iff_forall_ne_some.2 fun v hv => hread v (mem_of_lookup? hv)]
      rfl

theorem Build.ofValue?_written {b : Build} (h : b.Written v) : ofValue? v = some b := by
  obtain ⟨context, dockerfile, target⟩ := b
  cases h with
  | short hd ht hv =>
    rw [ofValue?]
    · obtain rfl : dockerfile = none := hd
      obtain rfl : target = none := ht
      rw [hv, Option.map_some]
    · exact ne_mapping_of_scalar? hv
  | long hes context dockerfile target =>
    rw [ofValue?, hes.textOf?_eq context, hes.textOf?_eq dockerfile, hes.textOf?_eq target,
      Option.getD_some]

theorem Variable.ofText_label {a : Assignment} (h : '=' ∉ a.key.toList) :
    ofText a.label = a.variable := by
  have hmark : "=".toList = ['='] := rfl
  obtain ⟨key, value⟩ := a
  cases value with
  | none =>
    have hcut : Text.cut? "=" key = none := (Text.cut?_eq_none hmark).2 h
    simp [ofText, Assignment.label, Assignment.variable, hcut]
  | some value =>
    have hcut : Text.cut? "=" (key ++ ("=" ++ value)) = some (key, value) :=
      (Text.cut?_eq_some_iff hmark).2 ⟨by rw [String.append_assoc], h⟩
    simp [ofText, Assignment.label, Assignment.variable, hcut]

/-- A list in which every item has a text is the list of these texts. -/
theorem filterMap_eq_of_map_eq {α β γ : Type} {f : α → Option β} {g : γ → β} {l : List α}
    {l' : List γ} (h : l.map f = l'.map fun c => some (g c)) : l.filterMap f = l'.map g := by
  have hid : l.filterMap f = (l.map f).filterMap id := by rw [List.filterMap_map, Function.id_comp]
  rw [hid, h, List.filterMap_map, Function.id_comp]
  exact congrFun List.filterMap_eq_map l'

theorem environmentOf_written {as : List Assignment} (h : AssignmentsWritten as v) :
    environmentOf (some v) = as.map (·.variable) := by
  cases h with
  | list has hitems =>
    rw [environmentOf, filterMap_eq_of_map_eq hitems, List.map_map]
    exact List.map_congr_left fun a ha => Variable.ofText_label (has a ha)
  | mapping hes =>
    rw [environmentOf]
    induction hes with
    | nil => rfl
    | @cons a e as es he _ ih =>
      obtain ⟨k, v⟩ := e
      have hvalue : (scalar? v).getD "" = a.value.getD "" := by
        have := he.value
        cases ha : a.value <;> simp_all [scalar?]
      have hkey : scalar? k = some a.key := he.key
      rw [List.filterMap_cons, List.map_cons, ih]
      simp [hkey, hvalue, Assignment.variable]

theorem namesOf_written {names : List String} (h : NamesWritten names v) :
    namesOf (some v) = names := by
  cases h with
  | list hitems => exact (filterMap_eq_of_map_eq hitems).trans (List.map_id _)
  | mapping hes => exact (filterMap_eq_of_map_eq hes).trans (List.map_id _)

/-! ## Services -/

/-- The values are the same, or write the same. -/
def SameForm {α : Type} (Written : α → Value → Prop) (v w : Value) : Prop :=
  v = w ∨ ∃ a, Written a v ∧ Written a w

/-- The values are the same, or sequences of items that are the same or write the same. -/
def SameItems {α : Type} (Written : α → Value → Prop) (v w : Value) : Prop :=
  v = w ∨ ∃ is js, v = .sequence is ∧ w = .sequence js ∧ List.Forall₂ (SameForm Written) is js

/-- The values of a field of a service are the same or, in a field with two forms, write the same.
-/
def SameField (key : String) (v w : Value) : Prop :=
  match key with
  | "build" => SameForm Build.Written v w
  | "ports" => SameItems Port.Written v w
  | "volumes" => SameItems Mount.Written v w
  | "environment" => SameForm AssignmentsWritten v w
  | "networks" | "depends_on" => SameForm NamesWritten v w
  | _ => v = w

/-- The entries have one key, and values that are the same or write the same. -/
def SameEntry (e f : Value × Value) : Prop :=
  e.1 = f.1 ∧ match e.1 with
    | .text key => SameField key e.2 f.2
    | _ => e.2 = f.2

/-- The bodies of services have the same entries, each in one form or another. -/
def SameBody (es fs : Entries) : Prop :=
  List.Forall₂ SameEntry es fs

section Same

variable {fs : Entries}

theorem SameForm.read_eq {α β : Type} {Written : α → Value → Prop} (h : SameForm Written v w)
    (read : Value → β) {result : α → β} (hread : ∀ a v, Written a v → read v = result a) :
    read v = read w := by
  rcases h with rfl | ⟨a, hv, hw⟩
  · rfl
  · rw [hread a v hv, hread a w hw]

/-- Items that write the same are read as the same list. -/
theorem SameItems.filterMap_eq {α : Type} {Written : α → Value → Prop} (h : SameItems Written v w)
    (read : Value → Option α) (hread : ∀ a v, Written a v → read v = some a) :
    (v.items?.getD []).filterMap read = (w.items?.getD []).filterMap read := by
  rcases h with rfl | ⟨is, js, rfl, rfl, h⟩
  · rfl
  · change is.filterMap read = js.filterMap read
    induction h with
    | nil => rfl
    | cons hvw _ ih => rw [List.filterMap_cons, List.filterMap_cons, hvw.read_eq read hread, ih]

/-- What is found under a key is the same or writes the same. -/
theorem SameBody.lookup? (h : SameBody es fs) (key : String) :
    Option.Rel (SameField key) (Value.lookup? es key) (Value.lookup? fs key) := by
  induction h with
  | nil => exact .none
  | @cons e f es fs hef _ ih =>
    obtain ⟨k, v⟩ := e
    obtain ⟨k', w⟩ := f
    obtain ⟨rfl, hvalue⟩ : k = k' ∧ _ := hef
    by_cases hk : k = .text key
    · rw [lookup?_cons_of_eq hk, lookup?_cons_of_eq hk]
      subst hk
      exact .some hvalue
    · rw [lookup?_cons_of_ne hk, lookup?_cons_of_ne hk]
      exact ih

/-- A field is read the same if the values that write the same in it are. -/
theorem SameBody.read_eq {β : Type} (h : SameBody es fs) (key : String) (read : Option Value → β)
    (hread : ∀ v w, SameField key v w → read (some v) = read (some w)) :
    read (Value.lookup? es key) = read (Value.lookup? fs key) := by
  have hfield := h.lookup? key
  generalize Value.lookup? es key = a, Value.lookup? fs key = b at hfield ⊢
  cases hfield with
  | none => rfl
  | some hvw => exact hread _ _ hvw

/-- Fields with names are read the same. -/
theorem SameBody.namesOf_eq (h : SameBody es fs) {key : String}
    (hkey : ∀ v w, SameField key v w → SameForm NamesWritten v w) :
    namesOf (Value.lookup? es key) = namesOf (Value.lookup? fs key) :=
  h.read_eq key namesOf fun v w hvw =>
    (hkey v w hvw).read_eq (fun v => namesOf (some v)) fun _ _ => namesOf_written

/-- Fields with items are read the same, if items that write the same are. -/
theorem SameBody.itemsOf_eq {α : Type} {Written : α → Value → Prop} (h : SameBody es fs)
    {key : String} (hkey : ∀ v w, SameField key v w → SameItems Written v w)
    (read : Value → Option α) (hread : ∀ a v, Written a v → read v = some a) :
    (itemsOf es key).filterMap read = (itemsOf fs key).filterMap read :=
  h.read_eq key (fun v => ((v.bind Value.items?).getD []).filterMap read) fun v w hvw =>
    (hkey v w hvw).filterMap_eq read hread

/-- A field with one form only is the same. -/
theorem SameBody.lookup?_eq (h : SameBody es fs) {key : String}
    (hkey : key ∉ ["build", "ports", "volumes", "environment", "networks", "depends_on"]) :
    Value.lookup? es key = Value.lookup? fs key :=
  h.read_eq key id fun v w hfield => by
    unfold SameField at hfield
    split at hfield <;> simp_all

/-- Bodies that write the same are read as the same service. -/
theorem Service.ofValue_sameBody (h : SameBody es fs) {body body' : Value}
    (hes : body.entries? = some es) (hfs : body'.entries? = some fs) (name : String) :
    ofValue name body = ofValue name body' := by
  have hbuild : (Value.lookup? es "build").bind Build.ofValue? =
      (Value.lookup? fs "build").bind Build.ofValue? :=
    h.read_eq "build" (·.bind Build.ofValue?) fun _ _ (hvw : SameForm Build.Written _ _) =>
      hvw.read_eq Build.ofValue? fun _ _ => Build.ofValue?_written
  have hports : (itemsOf es "ports").filterMap Port.ofValue? =
      (itemsOf fs "ports").filterMap Port.ofValue? :=
    h.itemsOf_eq (fun _ _ => id) Port.ofValue? fun _ _ => Port.ofValue?_written
  have hvolumes : (itemsOf es "volumes").filterMap Mount.ofValue? =
      (itemsOf fs "volumes").filterMap Mount.ofValue? :=
    h.itemsOf_eq (fun _ _ => id) Mount.ofValue? fun _ _ => Mount.ofValue?_written
  have henvironment : environmentOf (Value.lookup? es "environment") =
      environmentOf (Value.lookup? fs "environment") :=
    h.read_eq "environment" environmentOf fun _ _ (hvw : SameForm AssignmentsWritten _ _) =>
      hvw.read_eq (fun v => environmentOf (some v)) fun _ _ => environmentOf_written
  have hnetworks : namesOf (Value.lookup? es "networks") = namesOf (Value.lookup? fs "networks") :=
    h.namesOf_eq fun _ _ => id
  have hdependsOn : namesOf (Value.lookup? es "depends_on") =
      namesOf (Value.lookup? fs "depends_on") :=
    h.namesOf_eq fun _ _ => id
  have hrest : ∀ key ∈ ["image", "restart", "healthcheck", "deploy"],
      Value.lookup? es key = Value.lookup? fs key := fun key hkey =>
    h.lookup?_eq (by revert key; decide)
  rw [ofValue, ofValue, hes, hfs]
  simp only [textOf?, hbuild, hports, hvolumes, henvironment, hnetworks, hdependsOn,
    hrest "image" (by decide), hrest "restart" (by decide), hrest "healthcheck" (by decide),
    hrest "deploy" (by decide)]

/-- What is read from a value is what it writes, whatever its form. So bodies with the same entries,
each in one form or another, are read as the same service. -/
theorem Service.forms_agree :
    (∀ p v, Port.Written p v → Port.ofValue? v = some p) ∧
    (∀ m v, Mount.Written m v → Mount.ofValue? v = some m) ∧
    (∀ b v, Build.Written b v → Build.ofValue? v = some b) ∧
    (∀ as v, AssignmentsWritten as v → environmentOf (some v) = as.map (·.variable)) ∧
    (∀ names v, NamesWritten names v → namesOf (some v) = names) ∧
    ∀ name body body' es fs, body.entries? = some es → body'.entries? = some fs →
      SameBody es fs → ofValue name body = ofValue name body' :=
  ⟨fun _ _ => Port.ofValue?_written, fun _ _ => Mount.ofValue?_written,
    fun _ _ => Build.ofValue?_written, fun _ _ => environmentOf_written,
    fun _ _ => namesOf_written,
    fun name _ _ _ _ hes hfs h => ofValue_sameBody h hes hfs name⟩

/-- A service with a port and a variable written as texts, and the same service with mappings. -/
theorem Service.forms_agree_web :
    ofValue "web" (.mapping [
      (.text "image", .text "nginx"),
      (.text "ports", .sequence [.text "127.0.0.1:8080:80/tcp", .number (.int 9000)]),
      (.text "environment", .sequence [.text "OPTS=-Dk=v", .text "DEBUG"]),
      (.text "depends_on", .sequence [.text "db", .text "cache"])]) =
    ofValue "web" (.mapping [
      (.text "image", .text "nginx"),
      (.text "ports", .sequence [
        .mapping [(.text "target", .number (.int 80)), (.text "published", .text "127.0.0.1:8080"),
          (.text "protocol", .text "tcp")],
        .number (.int 9000)]),
      (.text "environment", .mapping [(.text "OPTS", .text "-Dk=v"), (.text "DEBUG", .null)]),
      (.text "depends_on", .mapping [
        (.text "db", .mapping [(.text "condition", .text "service_healthy")]),
        (.text "cache", .null)])]) := by
  have hport : SameForm Port.Written (.text "127.0.0.1:8080:80/tcp") (.mapping [
      (.text "target", .number (.int 80)), (.text "published", .text "127.0.0.1:8080"),
      (.text "protocol", .text "tcp")]) :=
    Or.inr ⟨⟨some "127.0.0.1:8080", "80", some "tcp"⟩, .short ⟨by decide, by simp⟩ (by decide),
      .long (by simp [DistinctKeys]) ⟨.text "127.0.0.1:8080", by simp, rfl⟩
        ⟨.number (.int 80), by simp, by decide⟩ ⟨.text "tcp", by simp, rfl⟩⟩
  have henvironment : SameForm AssignmentsWritten
      (.sequence [.text "OPTS=-Dk=v", .text "DEBUG"])
      (.mapping [(.text "OPTS", .text "-Dk=v"), (.text "DEBUG", .null)]) :=
    Or.inr ⟨[⟨"OPTS", some "-Dk=v"⟩, ⟨"DEBUG", none⟩], .list (by decide) (by decide),
      .mapping (.cons ⟨rfl, rfl⟩ (.cons ⟨rfl, rfl⟩ .nil))⟩
  have hnames : SameForm NamesWritten (.sequence [.text "db", .text "cache"]) (.mapping [
      (.text "db", .mapping [(.text "condition", .text "service_healthy")]),
      (.text "cache", .null)]) :=
    Or.inr ⟨["db", "cache"], .list (by decide), .mapping (by decide)⟩
  refine forms_agree.2.2.2.2.2 "web" _ _ _ _ rfl rfl ?_
  have hports : SameItems Port.Written _ _ :=
    Or.inr ⟨_, _, rfl, rfl, .cons hport (.cons (Or.inl (rfl : .number (.int 9000) = _)) .nil)⟩
  exact .cons ⟨rfl, rfl⟩
    (.cons ⟨rfl, hports⟩ (.cons ⟨rfl, henvironment⟩ (.cons ⟨rfl, hnames⟩ .nil)))

end Same

end Atlas.Docker
