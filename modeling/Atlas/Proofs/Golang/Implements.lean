import Atlas.Golang.Relation
import Atlas.Proofs.Golang.Grammar.File
import Atlas.Proofs.Golang.Methods
import Atlas.Proofs.Result

/-!
# Which structs implement which interfaces

A struct of a file implements an interface of it just if it has, for each method of the interface, a
method of the same name and the same signature (`implements_document`). The methods of a declared
struct are methods of the file, so the names in their parameters and results are words
(`lexed_of_mem_declaredStructs`), as those of the methods of a declared interface are. So equal
signatures mean that both methods show the same entries, unless a comment, an approximation or a
union stands in place of a type (`SourceFile.implements_ofBytes`).
-/

namespace Atlas.Golang

/-- The name of a method of an interface. -/
def Method.name : Method → String
  | .mk name _ _ _ _ => name

/-- Whether a function has the signature of a method of an interface. -/
def FunctionDecl.SameSignature (f : FunctionDecl) (m : Method) : Prop :=
  signature f.parameters f.results = signature m.parameters m.results

/-- Whether a function shows the parameters and results that a method of an interface does. -/
def FunctionDecl.SameEntries (f : FunctionDecl) (m : Method) : Prop :=
  entries f.parameters = entries m.parameters ∧ entries f.results = entries m.results

/-- Whether no comment, approximation or union stands in place of a type of a function. -/
def FunctionDecl.IsPlain (f : FunctionDecl) : Prop := plainParameters (f.parameters ++ f.results)

/-- Whether no comment, approximation or union stands in place of a type of a method. -/
def Method.IsPlain (m : Method) : Prop := plainParameters (m.parameters ++ m.results)

/-- Whether a struct has, for each method of an interface that has any, a method of the same name
and signature. -/
def StructDecl.Covers (s : StructDecl) (i : InterfaceDecl) : Prop :=
  i.methods ≠ [] ∧
    ∀ m ∈ i.methods, ∃ n ∈ s.methods, n.declaration.name = m.name ∧ n.declaration.SameSignature m

/-! ## The methods of declarations -/

theorem mem_of_mem_structsAmong {known : List String} {items : List Item} {s : StructDecl}
    {n : MethodDecl} (hs : s ∈ structsAmong known items) (hn : n ∈ s.methods) :
    ∃ receiver, .method receiver n ∈ items := by
  induction items generalizing known with
  | nil => exact absurd hs List.not_mem_nil
  | cons item items ih =>
    cases item with
    | method receiver m =>
      obtain ⟨r, hr⟩ := ih hs
      exact ⟨r, List.mem_cons_of_mem _ hr⟩
    | struct spec fields =>
      rcases List.mem_cons.1 hs with rfl | hs
      · dsimp only at hn
        split at hn
        · exact absurd hn List.not_mem_nil
        · obtain ⟨item, hitem, hmethod⟩ := List.mem_filterMap.1 hn
          cases item with
          | struct => exact absurd hmethod nofun
          | method receiver m =>
            obtain ⟨-, hm⟩ := Option.ite_some_none_eq_some.1 hmethod
            exact ⟨receiver, List.mem_cons_of_mem _ (hm ▸ hitem)⟩
      · obtain ⟨r, hr⟩ := ih hs
        exact ⟨r, List.mem_cons_of_mem _ hr⟩

theorem lexed_of_mem_items {d : Documented} (hd : d.declaration.Lexed) {receiver : String}
    {n : MethodDecl} (h : .method receiver n ∈ d.items) : n.declaration.Lexed := by
  unfold Documented.items at h
  cases hdecl : d.declaration with
  | types specs =>
    rw [hdecl] at h
    obtain ⟨t, -, ht⟩ := List.mem_filterMap.1 h
    unfold TypeSpec.item? at ht
    split at ht <;> simp at ht
  | method ps f =>
    rw [hdecl] at h hd
    dsimp only at h
    split at h
    · obtain ⟨-, rfl⟩ := Item.method.inj (List.mem_singleton.1 h)
      exact hd.2
    · exact absurd h List.not_mem_nil
  | _ => simp [hdecl] at h

variable {ds : List Documented} {s : StructDecl} {i : InterfaceDecl}

/-- The names in the parameters and results of a struct's methods are words. -/
theorem lexed_of_mem_declaredStructs (hds : ∀ d ∈ ds, d.declaration.Lexed)
    (hs : s ∈ declaredStructs ds) : ∀ n ∈ s.methods, n.declaration.Lexed := by
  intro n hn
  obtain ⟨receiver, hitem⟩ := mem_of_mem_structsAmong hs hn
  obtain ⟨d, hd, hitem⟩ := List.mem_flatMap.1 hitem
  exact lexed_of_mem_items (hds d hd) hitem

/-- The names in the parameters and results of an interface's methods are words. -/
theorem lexed_of_mem_declaredInterfaces (hds : ∀ d ∈ ds, d.declaration.Lexed)
    (hi : i ∈ declaredInterfaces ds) : ∀ m ∈ i.methods, m.Lexed := by
  obtain ⟨d, hd, hi⟩ := List.mem_flatMap.1 hi
  have hlexed := hds d hd
  unfold Documented.interfaces at hi
  cases hdecl : d.declaration with
  | types specs =>
    rw [hdecl] at hi hlexed
    obtain ⟨t, ht, hi⟩ := List.mem_filterMap.1 hi
    have htype := hlexed t ht
    unfold TypeSpec.interface? at hi
    split at hi
    case h_1 ms hms =>
      rw [← Option.some.inj hi]
      rw [hms] at htype
      cases htype with
      | base hb => exact absurd hb nofun
      | interface hnames htypes => exact fun m hm p hp => ⟨hnames m hm p hp, htypes m hm p hp⟩
    case h_2 => exact absurd hi nofun
  | _ => simp [hdecl] at hi

/-! ## Structs against interfaces -/

/-- Plain methods have one signature just if they show the same entries. -/
theorem FunctionDecl.sameSignature_iff {f : FunctionDecl} {m : Method} (hf : f.Lexed)
    (hm : m.Lexed) (hf' : f.IsPlain) (hm' : m.IsPlain) : f.SameSignature m ↔ f.SameEntries m :=
  signature_eq_iff hf hm hf' hm'

/-- A struct implements the interfaces that it covers. -/
theorem implements_document (file : String) (s : StructDecl) (i : InterfaceDecl) :
    implements (s.document file) (i.document file) ↔ s.Covers i := by
  have hname : ∀ m : Method, (m.function file).name = m.name := fun ⟨_, _, _, _, _⟩ => rfl
  have hsignature : ∀ m : Method,
      (m.function file).signature = signature m.parameters m.results := fun ⟨_, _, _, _, _⟩ => rfl
  simp [implements, StructDecl.Covers, StructDecl.document, InterfaceDecl.document,
    MethodDecl.function, FunctionDecl.function, FunctionDecl.SameSignature, hname, hsignature]

/-- The structs and interfaces of a file are those of its declarations, and which implements which
is told by the methods that the declarations give them. -/
structure SourceFile.ComparesMethods (f : SourceFile) (ds : List Documented) : Prop where
  structs : f.structs = (declaredStructs ds).map (·.document f.name)
  interfaces : f.interfaces = (declaredInterfaces ds).map (·.document f.name)
  implements_iff : ∀ s ∈ declaredStructs ds, ∀ i ∈ declaredInterfaces ds,
    implements (s.document f.name) (i.document f.name) ↔ s.Covers i
  sameSignature_iff : ∀ s ∈ declaredStructs ds, ∀ n ∈ s.methods, n.declaration.IsPlain →
    ∀ i ∈ declaredInterfaces ds, ∀ m ∈ i.methods, m.IsPlain →
      (n.declaration.SameSignature m ↔ n.declaration.SameEntries m)

/-- In every file that can be read, structs implement the interfaces whose methods they have with
the same signatures, which are the same just if they show the same entries. -/
theorem SourceFile.comparesMethods {name : String} {bytes : List UInt8} {f : SourceFile}
    (h : ofBytes name bytes = .ok f) :
    ∃ ds, declarations? (Utf8.decodeParts none bytes) = some ds ∧ f.ComparesMethods ds := by
  rw [ofBytes, read] at h
  split at h
  case h_2 => exact absurd h nofun
  case h_1 ds hds =>
    rw [← Except.ok.inj h]
    have hname : (ofDeclarations name ds).name = name := (foldl_add { name } ds).1
    have hlexed := lexed_of_declarations? hds
    refine ⟨ds, hds, ?_, ?_, fun s _ i _ => implements_document _ s i, ?_⟩
    · rw [hname, structs_ofDeclarations]
    · rw [hname, interfaces_ofDeclarations]
    · intro s hs n hn hplain i hi m hm hplain'
      exact FunctionDecl.sameSignature_iff (lexed_of_mem_declaredStructs hlexed hs n hn)
        (lexed_of_mem_declaredInterfaces hlexed hi m hm) hplain hplain'

/-- A file whose struct has another name for the parameter of the method that the interface has. -/
def renamedParameter : List UInt8 :=
  (Text.unlines
    ["package store", "",
      "type Store interface \x7b", "\tGet(key string) string", "\x7d", "",
      "type Memory struct\x7b\x7d", "",
      "func (m Memory) Get(k string) string \x7b return k \x7d"]).toUTF8.toList

/-- What is read of `renamedParameter`. -/
def renamedParameterFile : SourceFile :=
  { name := "proj/store.go", package := "store"
    interfaces := [{ name := "Store", doc := "", file := "proj/store.go", line := 3
                     methods := [{ name := "Get", doc := "", signature := "(key string) (string)"
                                   file := "proj/store.go", line := 4 }] }]
    structs := [{ name := "Memory", doc := "", file := "proj/store.go", line := 7, fields := []
                  methods := [{ name := "Get", doc := "", signature := "(k string) (string)"
                                file := "proj/store.go", line := 9 }] }] }

theorem comparesMethods_renamedParameter :
    SourceFile.ofBytes "proj/store.go" renamedParameter = .ok renamedParameterFile ∧
    ∃ ds, declarations? (Utf8.decodeParts none renamedParameter) = some ds ∧
      renamedParameterFile.ComparesMethods ds := by
  have h : SourceFile.ofBytes "proj/store.go" renamedParameter = .ok renamedParameterFile :=
    toOption_eq_some_iff.1 (by decide +kernel)
  exact ⟨h, SourceFile.comparesMethods h⟩

/-- The text of a type that is a name. -/
def TypeExpr.name? : TypeExpr → Option String
  | .name n => some n
  | _ => none

/-- The texts of the types of parameters that are names. -/
def typeNames (ps : List Parameter) : List (Option String) := ps.map (·.type.name?)

theorem types_of_typeNames {ps : List Parameter} {names : List String}
    (h : typeNames ps = names.map some) : ps.map Parameter.type = names.map TypeExpr.name := by
  have hname : ∀ {type : TypeExpr} {n : String}, type.name? = some n → type = .name n := by
    intro type n htype
    cases type with
    | name t => exact congrArg TypeExpr.name (Option.some.inj htype)
    | _ => cases htype
  induction ps generalizing names with
  | nil =>
    obtain rfl : names = [] := List.map_eq_nil_iff.1 h.symm
    rfl
  | cons p ps ih =>
    obtain ⟨n, names', rfl, hn, hnames⟩ := List.map_eq_cons_iff.1 h.symm
    rw [List.map_cons, List.map_cons, hname hn.symm, ih hnames.symm]

/-- The types of both methods are the same, and yet the struct does not implement the interface. -/
theorem renamedParameter_not_implements : ∃ ds s i n m,
    declarations? (Utf8.decodeParts none renamedParameter) = some ds ∧
    SourceFile.ofBytes "proj/store.go" renamedParameter =
      .ok (SourceFile.ofDeclarations "proj/store.go" ds) ∧
    declaredStructs ds = [s] ∧ s.methods = [n] ∧ declaredInterfaces ds = [i] ∧ i.methods = [m] ∧
    n.declaration.name = m.name ∧
    n.declaration.parameters.map Parameter.type = m.parameters.map Parameter.type ∧
    n.declaration.results.map Parameter.type = m.results.map Parameter.type ∧
    implements (s.document "proj/store.go") (i.document "proj/store.go") = false := by
  let declared := declarations? (Utf8.decodeParts none renamedParameter)
  have himplements : declared.map (fun ds => (declaredStructs ds).map fun s =>
      (declaredInterfaces ds).map fun i =>
        implements (s.document "proj/store.go") (i.document "proj/store.go")) =
      some [[false]] := by decide +kernel
  have hmethods : declared.map (fun ds => ((declaredStructs ds).flatMap (·.methods)).map fun n =>
      (n.declaration.name, typeNames n.declaration.parameters, typeNames n.declaration.results)) =
      some [("Get", [some "string"], [some "string"])] := by decide +kernel
  have hmethods' : declared.map (fun ds => ((declaredInterfaces ds).flatMap (·.methods)).map
      fun m => (m.name, typeNames m.parameters, typeNames m.results)) =
      some [("Get", [some "string"], [some "string"])] := by decide +kernel
  obtain ⟨ds, hds, himplements⟩ := Option.map_eq_some_iff.1 himplements
  obtain ⟨s, hs, himplements⟩ := List.map_eq_singleton_iff.1 himplements
  obtain ⟨i, hi, himplements⟩ := List.map_eq_singleton_iff.1 himplements
  rw [hds, Option.map_some, Option.some.injEq, hs, List.flatMap_singleton] at hmethods
  rw [hds, Option.map_some, Option.some.injEq, hi, List.flatMap_singleton] at hmethods'
  obtain ⟨n, hn, hn'⟩ := List.map_eq_singleton_iff.1 hmethods
  obtain ⟨m, hm, hm'⟩ := List.map_eq_singleton_iff.1 hmethods'
  simp only [Prod.mk.injEq] at hn' hm'
  obtain ⟨hname, hps, hrs⟩ := hn'
  obtain ⟨hname', hps', hrs'⟩ := hm'
  have htypes : ∀ {ps}, typeNames ps = [some "string"] →
      ps.map Parameter.type = [.name "string"] :=
    fun h => @types_of_typeNames _ ["string"] h
  have hread : SourceFile.ofBytes "proj/store.go" renamedParameter =
      .ok (SourceFile.ofDeclarations "proj/store.go" ds) := by
    rw [SourceFile.ofBytes, SourceFile.read, show declarations? _ = some ds from hds]
  exact ⟨ds, s, i, n, m, hds, hread, hs, hn, hi, hm, hname.trans hname'.symm,
    (htypes hps).trans (htypes hps').symm, (htypes hrs).trans (htypes hrs').symm, himplements⟩

end Atlas.Golang
