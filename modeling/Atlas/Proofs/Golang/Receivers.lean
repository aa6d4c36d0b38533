import Atlas.Proofs.Firsts
import Atlas.Proofs.Golang.Methods
import Atlas.Proofs.Golang.Outline
import Atlas.Proofs.Result

/-!
# Methods and their receivers

A method belongs to the first struct of its receiver's name among those that are declared before it
(`place`), if its receiver is a name with pointers, parentheses and arguments around it
(`Receives`). A file is what its declarations without the methods make, and each struct of it has
the methods that belong to it, in their order (`SourceFile.ofDeclarations_eq`). So the methods that
belong to some struct are with the structs once each (`SourceFile.methods_ofDeclarations_perm`), all
others are left out, and nothing else of a file depends on methods (`SourceFile.attachesMethods`).

A comment between a pointer or parenthesis and the name it stands before takes the place of the
name, and the method is left out (`notedReceiver_dropped`).
-/

set_option linter.unusedSectionVars false

namespace Atlas.Golang

/-! ## Receivers -/

/-- What is left of a type without the pointers, parentheses and arguments around it. -/
def TypeExpr.stripped : TypeExpr → TypeExpr
  | .pointer target => target.stripped
  | .parenthesized inner => inner.stripped
  | .generic base _ => base.stripped
  | t => t

theorem TypeExpr.baseName?_eq_some_iff {n : String} :
    ∀ {t : TypeExpr}, t.baseName? = some n ↔ t.stripped = .name n
  | .pointer t | .parenthesized t | .generic t _ => t.baseName?_eq_some_iff
  | .name m => by simp [baseName?, stripped]
  | .qualified _ _ | .list _ | .map _ _ | .channel _ _ | .function _ _ | .struct _ | .interface _
  | .verbatim _ => by simp [baseName?, stripped]

/-- Whether methods with this receiver belong to a type of this name. The type is that of the first
parameter that is not variadic. -/
def Receives (receiver : List Parameter) (n : String) : Prop :=
  ∃ before names type after, receiver = before ++ .mk names false type :: after ∧
    (∀ p ∈ before, ∃ names type, p = .mk names true type) ∧ type.stripped = .name n

theorem receiverName?_eq_some_iff {receiver : List Parameter} {n : String} :
    receiverName? receiver = some n ↔ Receives receiver n := by
  simp only [receiverName?, Option.bind_eq_some_iff, List.findSome?_eq_some_iff,
    TypeExpr.baseName?_eq_some_iff]
  constructor
  · rintro ⟨type, ⟨before, ⟨names, variadic, type'⟩, after, hreceiver, hfirst, hbefore⟩, htype⟩
    cases variadic with
    | true => cases hfirst
    | false =>
      obtain rfl := Option.some.inj hfirst
      refine ⟨before, names, _, after, hreceiver, fun p hp => ?_, htype⟩
      have hnone := hbefore p hp
      obtain ⟨ns, variadic, t⟩ := p
      cases variadic with
      | true => exact ⟨ns, t, rfl⟩
      | false => cases hnone
  · rintro ⟨before, names, type, after, hreceiver, hbefore, htype⟩
    refine ⟨type, ⟨before, _, after, hreceiver, rfl, fun p hp => ?_⟩, htype⟩
    obtain ⟨ns, t, rfl⟩ := hbefore p hp
    rfl

/-! ## Places -/

/-- The name of a type, if it is a struct. -/
def TypeSpec.structName? (t : TypeSpec) : Option String :=
  match t.type with
  | .struct _ => some t.name
  | _ => none

/-- The names of the structs that a declaration declares. -/
def Documented.structNames (d : Documented) : List String :=
  match d.declaration with
  | .types specs => specs.filterMap (·.structName?)
  | _ => []

/-- Whether a declaration is one of a method. -/
def Documented.isMethod (d : Documented) : Bool :=
  match d.declaration with
  | .method .. => true
  | _ => false

/-- The functions of a declaration. -/
def Documented.functions (file : String) (d : Documented) : List Function :=
  match d.declaration with
  | .function f => [f.function file d.doc d.line]
  | _ => []

/-- The place of the struct that methods with this receiver belong to, among structs of these names.
-/
def place (known : List String) (receiver : List Parameter) : Option ℕ :=
  (receiverName? receiver).bind known.idxOf?

/-- Methods belong to the first struct of the name. -/
theorem place_eq_some_iff {known : List String} {receiver : List Parameter} {j : ℕ} :
    place known receiver = some j ↔
      ∃ n, Receives receiver n ∧ known[j]? = some n ∧ n ∉ known.take j := by
  have hfirst : ∀ n, known.idxOf? n = some j ↔ known[j]? = some n ∧ n ∉ known.take j := by
    intro n
    rw [List.idxOf?_eq_some_iff, List.getElem?_eq_some_iff, List.mem_take_iff_getElem]
    grind
  simp only [place, Option.bind_eq_some_iff, receiverName?_eq_some_iff, hfirst]

/-- The method of a declaration, if it is one, with the place of its struct. -/
def Documented.placedMethod (known : List String) (d : Documented) :
    List (Option ℕ × MethodDecl) :=
  match d.declaration with
  | .method receiver f => [(place known receiver, ⟨d.doc, d.line, f⟩)]
  | _ => []

/-- The methods that are declared, each with the place of its struct among those known and those
declared before it. -/
def placedMethods : List String → List Documented → List (Option ℕ × MethodDecl)
  | _, [] => []
  | known, d :: ds => d.placedMethod known ++ placedMethods (known ++ d.structNames) ds

theorem placedMethods_append (known : List String) (ds es : List Documented) :
    placedMethods known (ds ++ es) =
      placedMethods known ds ++ placedMethods (known ++ ds.flatMap (·.structNames)) es := by
  induction ds generalizing known with
  | nil => simp [placedMethods]
  | cons d ds ih => simp [placedMethods, ih]

theorem Documented.structNames_of_isMethod {d : Documented} (h : d.isMethod = true) :
    d.structNames = [] := by
  unfold Documented.isMethod at h
  unfold Documented.structNames
  cases hdecl : d.declaration with
  | types specs => simp [hdecl] at h
  | _ => rfl

theorem Documented.placedMethod_of_not_isMethod {d : Documented} (h : d.isMethod = false)
    (known : List String) : d.placedMethod known = [] := by
  unfold Documented.isMethod at h
  unfold Documented.placedMethod
  cases hdecl : d.declaration with
  | method receiver f => simp [hdecl] at h
  | _ => rfl

theorem placedMethods_filter_not_isMethod (known : List String) (ds : List Documented) :
    placedMethods known (ds.filter (!·.isMethod)) = [] := by
  induction ds generalizing known with
  | nil => rfl
  | cons d ds ih =>
    cases hd : d.isMethod with
    | true => simp [hd, ih]
    | false => simp [hd, ih, placedMethods, Documented.placedMethod_of_not_isMethod hd]

/-- The places are those of structs that are known or declared. -/
theorem lt_of_mem_placedMethods {known : List String} {ds : List Documented}
    {m : Option ℕ × MethodDecl} (hm : m ∈ placedMethods known ds) {j : ℕ} (hj : m.1 = some j) :
    j < (known ++ ds.flatMap (·.structNames)).length := by
  induction ds generalizing known with
  | nil => cases hm
  | cons d ds ih =>
    rw [placedMethods, List.mem_append] at hm
    rw [List.flatMap_cons, ← List.append_assoc]
    rcases hm with hm | hm
    · unfold Documented.placedMethod at hm
      split at hm
      · obtain rfl := List.mem_singleton.1 hm
        obtain ⟨n, -, hknown, -⟩ := place_eq_some_iff.1 hj
        have hlt := (List.getElem?_eq_some_iff.1 hknown).1
        simp only [List.length_append]
        omega
      · cases hm
    · exact ih hm

/-! ## Files with methods -/

theorem attachMethod_eq_mapIdx (name : String) (m : Function) (ss : List Struct) :
    attachMethod name m ss = ss.mapIdx fun j s =>
      if (ss.map (·.name)).idxOf? name = some j then { s with methods := s.methods ++ [m] }
      else s := by
  induction ss with
  | nil => rfl
  | cons s ss ih =>
    rw [attachMethod, List.map_cons, List.idxOf?_cons, List.mapIdx_cons]
    by_cases hs : s.name = name
    · have hid : ss.mapIdx (fun _ s => s) = ss := List.ext_getElem? fun i => by simp
      simp [hs, hid]
    · simp [hs, ih]

theorem names_attachMethod (name : String) (m : Function) (ss : List Struct) :
    (attachMethod name m ss).map (·.name) = ss.map (·.name) := by
  induction ss with
  | nil => rfl
  | cons s ss ih =>
    rw [attachMethod]
    split_ifs <;> simp [ih]

namespace SourceFile

/-- The file whose structs have the methods with their places. -/
def withMethods (f : SourceFile) (ms : List (Option ℕ × MethodDecl)) : SourceFile :=
  { f with
    structs := f.structs.mapIdx fun j s =>
      { s with methods := (ms.filter (·.1 = some j)).map (·.2.function f.name) } }

/-- The file without the methods of its structs. -/
def withoutMethods (f : SourceFile) : SourceFile :=
  { f with structs := f.structs.map fun s => { s with methods := [] } }

theorem names_structs_withMethods (f : SourceFile) (ms : List (Option ℕ × MethodDecl)) :
    (f.withMethods ms).structs.map (·.name) = f.structs.map (·.name) := by
  refine List.ext_getElem? fun i => ?_
  simp [withMethods, Function.comp_def]

theorem names_structs_addType (f : SourceFile) (t : TypeSpec) :
    (f.addType t).structs.map (·.name) = f.structs.map (·.name) ++ t.structName?.toList := by
  unfold addType TypeSpec.structName?
  cases t.type <;> simp

theorem names_structs_foldl_addType (f : SourceFile) (ts : List TypeSpec) :
    (ts.foldl addType f).structs.map (·.name) =
      f.structs.map (·.name) ++ ts.filterMap (·.structName?) := by
  induction ts generalizing f with
  | nil => simp
  | cons t ts ih =>
    rw [List.foldl_cons, ih, names_structs_addType]
    cases h : t.structName? <;> simp [h]

theorem addType_withMethods (f : SourceFile) (t : TypeSpec) {ms : List (Option ℕ × MethodDecl)}
    (h : ∀ m ∈ ms, ∀ j, m.1 = some j → j < f.structs.length) :
    (f.withMethods ms).addType t = (f.addType t).withMethods ms := by
  have hnone : ms.filter (·.1 = some f.structs.length) = [] :=
    List.filter_eq_nil_iff.2 fun m hm hj => Nat.lt_irrefl _ (h m hm _ (of_decide_eq_true hj))
  unfold addType
  cases t.type <;> simp [withMethods, hnone]

theorem foldl_addType_withMethods (f : SourceFile) (ts : List TypeSpec)
    {ms : List (Option ℕ × MethodDecl)}
    (h : ∀ m ∈ ms, ∀ j, m.1 = some j → j < f.structs.length) :
    ts.foldl addType (f.withMethods ms) = (ts.foldl addType f).withMethods ms := by
  induction ts generalizing f with
  | nil => rfl
  | cons t ts ih =>
    rw [List.foldl_cons, List.foldl_cons, addType_withMethods f t h]
    refine ih _ fun m hm j hj => ?_
    have hlength := congrArg List.length (names_structs_addType f t)
    simp only [List.length_map, List.length_append] at hlength
    have := h m hm j hj
    omega

/-- A declaration other than of a method adds the same to a file whose structs have methods. -/
theorem add_withMethods_of_not_isMethod (f : SourceFile) {d : Documented} (hd : d.isMethod = false)
    {ms : List (Option ℕ × MethodDecl)}
    (h : ∀ m ∈ ms, ∀ j, m.1 = some j → j < f.structs.length) :
    (f.withMethods ms).add d = (f.add d).withMethods ms := by
  unfold Documented.isMethod at hd
  unfold add
  cases hdecl : d.declaration with
  | types specs => exact foldl_addType_withMethods f specs h
  | method receiver fn => simp [hdecl] at hd
  | _ => rfl

/-- A method is added behind the others of its struct. -/
theorem add_withMethods_of_isMethod (f : SourceFile) {d : Documented} (hd : d.isMethod = true)
    (ms : List (Option ℕ × MethodDecl)) : (f.withMethods ms).add d =
      f.withMethods (ms ++ d.placedMethod (f.structs.map (·.name))) := by
  unfold Documented.isMethod at hd
  unfold add Documented.placedMethod place
  cases hdecl : d.declaration with
  | method receiver fn =>
    dsimp only
    cases receiverName? receiver with
    | none => simp [withMethods]
    | some n =>
      simp only [attachMethod_eq_mapIdx, names_structs_withMethods]
      simp only [withMethods, List.mapIdx_mapIdx, Option.bind_some]
      congr 2
      funext j s
      by_cases hj : (f.structs.map (·.name)).idxOf? n = some j <;> simp [hj, MethodDecl.function]
  | _ => simp [hdecl] at hd

theorem names_structs_add (f : SourceFile) (d : Documented) :
    (f.add d).structs.map (·.name) = f.structs.map (·.name) ++ d.structNames := by
  unfold add Documented.structNames
  cases d.declaration with
  | types specs => exact names_structs_foldl_addType f specs
  | method receiver fn =>
    dsimp only
    split <;> simp [names_attachMethod]
  | _ => exact (List.append_nil _).symm

theorem names_structs_ofDeclarations (name : String) (ds : List Documented) :
    (ofDeclarations name ds).structs.map (·.name) = ds.flatMap (·.structNames) := by
  induction ds using List.reverseRecOn with
  | nil => rfl
  | append_singleton ds d ih =>
    rw [ofDeclarations_concat, names_structs_add, ih, List.flatMap_append, List.flatMap_singleton]

/-- The structs are declared by declarations other than of methods. -/
theorem names_structs_filter (name : String) (ds : List Documented) :
    (ofDeclarations name (ds.filter (!·.isMethod))).structs.map (·.name) =
      ds.flatMap (·.structNames) := by
  rw [names_structs_ofDeclarations]
  induction ds with
  | nil => rfl
  | cons d ds ih =>
    cases hd : d.isMethod with
    | true => simp [hd, ih, Documented.structNames_of_isMethod hd]
    | false => simp [hd, ih]

/-- The places are those of structs of the file. -/
theorem lt_length_structs (name : String) {ds : List Documented} {m : Option ℕ × MethodDecl}
    (hm : m ∈ placedMethods [] ds) {j : ℕ} (hj : m.1 = some j) :
    j < (ofDeclarations name (ds.filter (!·.isMethod))).structs.length := by
  have hlt := lt_of_mem_placedMethods hm hj
  rwa [List.nil_append, ← names_structs_filter name, List.length_map] at hlt

/-- A file is what its declarations without the methods make, and its structs have the methods with
their places. -/
theorem ofDeclarations_eq (name : String) (ds : List Documented) : ofDeclarations name ds =
    (ofDeclarations name (ds.filter (!·.isMethod))).withMethods (placedMethods [] ds) := by
  induction ds using List.reverseRecOn with
  | nil => rfl
  | append_singleton ds d ih =>
    have hplaced : placedMethods [] (ds ++ [d]) =
        placedMethods [] ds ++ d.placedMethod (ds.flatMap (·.structNames)) := by
      simp [placedMethods_append, placedMethods]
    rw [ofDeclarations_concat, ih, hplaced, List.filter_append]
    cases hd : d.isMethod with
    | true =>
      rw [add_withMethods_of_isMethod _ hd, names_structs_filter]
      simp [hd]
    | false =>
      rw [add_withMethods_of_not_isMethod _ hd fun m hm j => lt_length_structs name hm,
        Documented.placedMethod_of_not_isMethod hd, List.append_nil]
      simp [hd, ofDeclarations_concat]

/-! ## Files without methods -/

theorem name_ofDeclarations (name : String) (ds : List Documented) :
    (ofDeclarations name ds).name = name :=
  (foldl_add { name } ds).1

theorem functions_foldl_addType (f : SourceFile) (ts : List TypeSpec) :
    (ts.foldl addType f).functions = f.functions := by
  induction ts generalizing f with
  | nil => rfl
  | cons t ts ih =>
    rw [List.foldl_cons, ih]
    unfold addType
    split <;> rfl

/-- The functions of a file are those declared. -/
theorem functions_ofDeclarations (name : String) (ds : List Documented) :
    (ofDeclarations name ds).functions = ds.flatMap (·.functions name) := by
  induction ds using List.reverseRecOn with
  | nil => rfl
  | append_singleton ds d ih =>
    rw [ofDeclarations_concat, List.flatMap_append, List.flatMap_singleton, ← ih]
    unfold add Documented.functions
    cases d.declaration with
    | types specs => simp [functions_foldl_addType]
    | method receiver fn => cases h : receiverName? receiver <;> simp [h]
    | function fn => simp [name_ofDeclarations]
    | _ => simp

theorem withMethods_nil (f : SourceFile) : f.withMethods [] = f.withoutMethods := by
  rw [withMethods, withoutMethods]
  congr 1
  exact List.ext_getElem? fun i => by simp

theorem withoutMethods_withMethods (f : SourceFile) (ms : List (Option ℕ × MethodDecl)) :
    (f.withMethods ms).withoutMethods = f.withoutMethods := by
  rw [withMethods, withoutMethods, withoutMethods]
  congr 1
  exact List.ext_getElem? fun i => by simp [Function.comp_def]

/-- A file without the methods of its structs is what its other declarations make. -/
theorem withoutMethods_ofDeclarations (name : String) (ds : List Documented) :
    (ofDeclarations name ds).withoutMethods = ofDeclarations name (ds.filter (!·.isMethod)) := by
  have hnone := placedMethods_filter_not_isMethod [] ds
  have hidem : (ds.filter (!·.isMethod)).filter (!·.isMethod) = ds.filter (!·.isMethod) := by simp
  have h := ofDeclarations_eq name (ds.filter (!·.isMethod))
  rw [hnone, hidem, withMethods_nil] at h
  rw [ofDeclarations_eq, withoutMethods_withMethods, ← h]

theorem methods_withMethods (f : SourceFile) (ms : List (Option ℕ × MethodDecl)) :
    (f.withMethods ms).structs.flatMap (·.methods) =
      ((List.range f.structs.length).flatMap fun j => ms.filter (·.1 = some j)).map
        (·.2.function f.name) := by
  have hindices : List.range f.structs.length = f.structs.zipIdx.map (·.2) := by
    rw [List.zipIdx_map_snd, List.range_eq_range']
  rw [withMethods, List.mapIdx_eq_zipIdx_map, List.flatMap_map, hindices, List.flatMap_map,
    List.map_flatMap]

/-- The methods of all structs are those that belong to one, once each. -/
theorem methods_ofDeclarations_perm (name : String) (ds : List Documented) :
    ((ofDeclarations name ds).structs.flatMap (·.methods)).Perm
      (((placedMethods [] ds).filter (·.1.isSome)).map (·.2.function name)) := by
  let structs := (ofDeclarations name (ds.filter (!·.isMethod))).structs
  have hplaces : ((List.range structs.length).map some).Nodup :=
    List.nodup_range.map fun _ _ => Option.some.inj
  have hplaced : ∀ m ∈ (placedMethods [] ds).filter (·.1.isSome),
      m.1 ∈ (List.range structs.length).map some := by
    intro m hm
    obtain ⟨hm, hsome⟩ := List.mem_filter.1 hm
    obtain ⟨j, hj⟩ := Option.isSome_iff_exists.1 hsome
    rw [hj]
    exact List.mem_map_of_mem (List.mem_range.2 (lt_length_structs name hm hj))
  have hsplit := perm_flatMap_filter (fun m : Option ℕ × MethodDecl => m.1) hplaces hplaced
  have hfilter : ∀ j : ℕ, ((placedMethods [] ds).filter (·.1.isSome)).filter (·.1 = some j) =
      (placedMethods [] ds).filter (·.1 = some j) := by
    intro j
    rw [List.filter_filter]
    exact List.filter_congr fun m _ => by by_cases hm : m.1 = some j <;> simp [hm]
  rw [ofDeclarations_eq, methods_withMethods, name_ofDeclarations]
  simp only [List.flatMap_map, hfilter] at hsplit
  exact hsplit.map _

end SourceFile

/-! ## Files that are read -/

/-- What the methods that are declared in a file make of it. -/
structure SourceFile.AttachesMethods (f : SourceFile) (ds : List Documented) : Prop where
  names : f.structs.map (·.name) = ds.flatMap (·.structNames)
  /-- The structs have the methods with their places, and all else is what the declarations without
  the methods make. -/
  placed : f =
    (ofDeclarations f.name (ds.filter (!·.isMethod))).withMethods (placedMethods [] ds)
  /-- The place of a method is the first struct of its receiver's name. -/
  place_iff : ∀ known receiver j, place known receiver = some j ↔
    ∃ n, Receives receiver n ∧ known[j]? = some n ∧ n ∉ known.take j
  once : (f.structs.flatMap (·.methods)).Perm
    (((placedMethods [] ds).filter (·.1.isSome)).map (·.2.function f.name))
  functions : f.functions = ds.flatMap (·.functions f.name)
  /-- A file with the declarations that are left without the methods has all else the same, but for
  documentation and lines. -/
  others : ∀ bytes f' ds', ofBytes f.name bytes = .ok f' →
    declarations? (Utf8.decodeParts none bytes) = some ds' →
    ds'.map (·.bare) = (ds.filter (!·.isMethod)).map (·.bare) → f'.bare = f.withoutMethods.bare

theorem SourceFile.exists_of_ofBytes {name : String} {bytes : List UInt8} {f : SourceFile}
    (h : ofBytes name bytes = .ok f) : ∃ ds,
      declarations? (Utf8.decodeParts none bytes) = some ds ∧ f = ofDeclarations name ds := by
  rw [ofBytes, read] at h
  split at h
  · next ds hds => exact ⟨ds, hds, (Except.ok.inj h).symm⟩
  · cases h

/-- In every file that is read, the methods are with the structs they belong to and nowhere else, and
all else is as if no methods were declared. -/
theorem SourceFile.attachesMethods {name : String} {bytes : List UInt8} {f : SourceFile}
    (h : ofBytes name bytes = .ok f) :
    ∃ ds, declarations? (Utf8.decodeParts none bytes) = some ds ∧ f.AttachesMethods ds := by
  obtain ⟨ds, hds, rfl⟩ := exists_of_ofBytes h
  have hname := name_ofDeclarations name ds
  refine ⟨ds, hds, names_structs_ofDeclarations name ds, ?_, fun _ _ _ => place_eq_some_iff, ?_, ?_,
    fun bytes' f' ds' hf' hds' hbare => ?_⟩
  · rw [hname]
    exact ofDeclarations_eq name ds
  · rw [hname]
    exact methods_ofDeclarations_perm name ds
  · rw [hname]
    exact functions_ofDeclarations name ds
  · obtain ⟨ds'', hds'', rfl⟩ := exists_of_ofBytes hf'
    obtain rfl : ds'' = ds' := Option.some.inj (hds''.symm.trans hds')
    rw [hname, withoutMethods_ofDeclarations, bare_ofDeclarations, bare_ofDeclarations, hbare]

/-- Two structs of one name, with one method before them and one behind. -/
def receivers : List UInt8 :=
  (Text.unlines
    ["package store", "", "func (c Cache) Early()", "", "type Cache[K any] struct\x7b n int \x7d",
      "type Cache struct\x7b\x7d", "", "func (c *(Cache[K])) Get(k K) int", "",
      "func Free()"]).toUTF8.toList

/-- What is read of `receivers`. -/
def receiversFile : SourceFile :=
  { name := "store.go", package := "store"
    structs := [{ name := "Cache", file := "store.go", line := 5
                  fields := [{ name := "n", type := "int" }]
                  methods := [{ name := "Get", signature := "(k K) (int)", file := "store.go"
                                line := 8 }] },
      { name := "Cache", file := "store.go", line := 6 }]
    functions := [{ name := "Free", signature := "()", file := "store.go", line := 10 }] }

theorem attachesMethods_receivers : SourceFile.ofBytes "store.go" receivers = .ok receiversFile ∧
    ∃ ds, declarations? (Utf8.decodeParts none receivers) = some ds ∧
      receiversFile.AttachesMethods ds := by
  have h : SourceFile.ofBytes "store.go" receivers = .ok receiversFile :=
    toOption_eq_some_iff.1 (by decide +kernel)
  exact ⟨h, SourceFile.attachesMethods h⟩

/-- A file with one struct and a method for it. -/
def cacheText (receiver : String) : List UInt8 :=
  (Text.unlines
    ["package p", "", "type Cache struct\x7b\x7d", "",
      "func (" ++ receiver ++ ") Get(k string) string \x7b return k \x7d"]).toUTF8.toList

/-- A comment behind the pointer of a receiver costs the struct its method. -/
theorem notedReceiver_dropped :
    (SourceFile.ofBytes "cache.go" (cacheText "c * Cache")).toOption.map
        (fun f => f.structs.map fun s => s.methods.map (·.name)) = some [["Get"]] ∧
      (SourceFile.ofBytes "cache.go" (cacheText "c */* the cache */ Cache")).toOption.map
        (fun f => f.structs.map fun s => s.methods.map (·.name)) = some [[]] := by
  decide +kernel

end Atlas.Golang
