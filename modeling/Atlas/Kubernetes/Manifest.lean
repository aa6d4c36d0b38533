import Atlas.Error
import Atlas.Kubernetes.Spec
import Atlas.Places
import Atlas.Text

/-!
# Reading manifests

A manifest holds documents between separator lines (`splitDocuments`), which a `Decoder` reads. Each
document that declares a resource is registered under its key; of two resources with one key the
first stays. Documents that cannot be read, or declare no resource, are passed over.
-/

namespace Atlas.Kubernetes

open Yaml (Value)
open Yaml.Typed

/-! ## Documents -/

/-- The lines of a text, each with its line feed. -/
def inclusiveLines : List Char → List (List Char)
  | [] => []
  | c :: r =>
    if c = '\n' then [c] :: inclusiveLines r
    else match inclusiveLines r with
      | [] => [[c]]
      | l :: ls => (c :: l) :: ls

theorem flatten_inclusiveLines (s : List Char) : (inclusiveLines s).flatten = s := by
  induction s with
  | nil => rfl
  | cons c r ih =>
    rw [inclusiveLines]
    split
    · simp [ih]
    · split <;> simp_all

/-- Whether a line separates two documents. -/
def isSeparator (line : List Char) : Bool :=
  let l := Chars.trimEnd line
  l == "---".toList || Chars.startsWith "--- ".toList l

/-- The documents between the separators among some lines. -/
def documentsOf : List (List Char) → List (List Char)
  | [] => [[]]
  | l :: ls =>
    if isSeparator l then [] :: documentsOf ls
    else match documentsOf ls with
      | [] => [l]
      | d :: ds => (l ++ d) :: ds

/-- The documents of a text. -/
def splitDocuments (s : List Char) : List (List Char) := documentsOf (inclusiveLines s)

/-! ## Resources -/

/-- What a document says of a resource apart from its specification. -/
structure Header where
  kind : String
  name : String
  ns : Option String
  labels : Labels
  spec : Value

/-- The name, the namespace and the labels of a resource. -/
def metadata : Typed (String × Option String × Labels) := fun v => do
  let fs ← fields ["name", "namespace", "labels"] v
  return (← field fs "name" "" text, ← field fs "namespace" none (optional text),
    ← field fs "labels" [] labels)

/-- The header of a document that is a mapping. -/
def header : Typed Header := fun v => do
  let fs ← fields ["kind", "metadata", "spec"] v
  let kind ← field fs "kind" "" text
  let (name, ns, labels) ← field fs "metadata" ("", none, []) metadata
  return { kind, name, ns, labels, spec := (fs.lookup "spec").getD .null }

/-- How documents are decoded. -/
structure Decoder where
  /-- The value of a text. -/
  value? : String → Option Value
  /-- The header of a document that is a mapping. -/
  header? : Typed Header
  /-- The specification of a kind. -/
  spec? : String → Typed Spec

/-- Documents in YAML, with the known kinds. -/
def Decoder.yaml : Decoder := ⟨Value.read?, header, Spec.ofValue?⟩

namespace Decoder

/-- The resource that a document declares. -/
def resourceOf? (dec : Decoder) (source : String) (document : Nat) (v : Value) : Option Resource :=
  match v with
  | .mapping _ => do
    let h ← dec.header? v
    if h.kind = "" ∨ h.name = "" then none
    return {
      name := h.name, kind := h.kind, ns := h.ns, labels := h.labels
      spec := ← dec.spec? h.kind h.spec
      source, document }
  | _ => none

/-- The resource that the text of a document declares. -/
def read? (dec : Decoder) (source : String) (document : Nat) (text : List Char) :
    Option Resource := do
  if Chars.trim text = [] then none
  dec.resourceOf? source document (← dec.value? (String.ofList text))

end Decoder

/-! ## Registration -/

/-- The resources that were registered, in order, and the place of each key among them. -/
structure Inventory where
  resources : List Resource := []
  places : Places ResourceKey := []
  deriving DecidableEq, Repr

namespace Inventory

/-- No resource is registered. -/
def empty : Inventory := {}

/-- The resource of a key. -/
def get? (inv : Inventory) (key : ResourceKey) : Option Resource :=
  (inv.places.lookup key).bind (inv.resources[·]?)

/-- The inventory with one more resource; none where its key is taken already. -/
def register (inv : Inventory) (r : Resource) : Result Inventory :=
  let k := r.key
  if (inv.places.lookup k).isSome then
    .error (.duplicate (k.ns ++ "/" ++ k.kind ++ " " ++ k.name ++ " already registered"))
  else .ok {
    resources := inv.resources ++ [r], places := (k, inv.resources.length) :: inv.places }

/-- The inventory with one more resource, or as it is where the key of that is taken. -/
def registerNew (inv : Inventory) (r : Resource) : Inventory :=
  match inv.register r with
  | .ok inv => inv
  | .error _ => inv

/-- The inventory with the resource that a document declares, if there is one. -/
def readDocument (inv : Inventory) (dec : Decoder) (source : String) (document : Nat)
    (text : List Char) : Inventory :=
  match dec.read? source document text with
  | some r => inv.registerNew r
  | none => inv

/-- The inventory with the resources of a manifest. -/
def readManifest (inv : Inventory) (dec : Decoder) (source text : String) : Inventory :=
  (splitDocuments text.toList).zipIdx.foldl
    (fun inv (d, i) => inv.readDocument dec source i d) inv

end Inventory

end Atlas.Kubernetes
