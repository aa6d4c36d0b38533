import Atlas.Golang.Document
import Mathlib.Data.List.Induction

/-!
# Declarations without documentation and lines

What comes before a declaration decides on its line and its documentation, and on nothing else.
`Documented.bare` is a declaration without both, down to the fields and methods inside its types, and
`SourceFile.bare` a file without both. The texts of types and the names of receivers stay the same
(`TypeExpr.text_bare`, `receiverName?_bareParameters`), so files whose declarations are the same but
for documentation and lines are so as well (`SourceFile.bare_ofDeclarations`).
-/

set_option linter.unusedSectionVars false

namespace Atlas.Golang

/-! ## Types -/

mutual

/-- A type without the documentation and lines inside. -/
def TypeExpr.bare : TypeExpr → TypeExpr
  | .generic base arguments => .generic base.bare (bareTypes arguments)
  | .pointer target => .pointer target.bare
  | .list element => .list element.bare
  | .map key value => .map key.bare value.bare
  | .channel direction element => .channel direction element.bare
  | .function parameters results => .function (bareParameters parameters) (bareParameters results)
  | .struct fields => .struct (bareFields fields)
  | .interface methods => .interface (bareMethods methods)
  | .parenthesized inner => .parenthesized inner.bare
  | .name n => .name n
  | .qualified p n => .qualified p n
  | .verbatim text => .verbatim text

def bareTypes : List TypeExpr → List TypeExpr
  | [] => []
  | t :: ts => t.bare :: bareTypes ts

/-- Parameters without the documentation and lines inside. -/
def bareParameters : List Parameter → List Parameter
  | [] => []
  | .mk names variadic type :: ps => .mk names variadic type.bare :: bareParameters ps

/-- A field without documentation and lines. -/
def Field.bare : Field → Field
  | .named names type tag _ => .named names type.bare tag ""
  | .embedded pointer type tag _ => .embedded pointer type.bare tag ""

def bareFields : List Field → List Field
  | [] => []
  | f :: fs => f.bare :: bareFields fs

/-- A method of an interface without documentation and lines. -/
def Method.bare : Method → Method
  | .mk name _ _ parameters results =>
    .mk name "" 0 (bareParameters parameters) (bareParameters results)

def bareMethods : List Method → List Method
  | [] => []
  | m :: ms => m.bare :: bareMethods ms

end

theorem bareFields_eq_map (fs : List Field) : bareFields fs = fs.map Field.bare := by
  induction fs with
  | nil => rfl
  | cons f fs ih => simp [bareFields, ih]

theorem bareMethods_eq_map (ms : List Method) : bareMethods ms = ms.map Method.bare := by
  induction ms with
  | nil => rfl
  | cons m ms ih => simp [bareMethods, ih]

mutual

theorem TypeExpr.text_bare : ∀ t : TypeExpr, t.bare.text = t.text
  | .name _ | .qualified _ _ | .struct _ | .interface _ | .verbatim _ => rfl
  | .generic base arguments => by
    rw [TypeExpr.bare, TypeExpr.text, TypeExpr.text, base.text_bare, typeTexts_bareTypes]
  | .pointer t | .list t | .parenthesized t => by
    rw [TypeExpr.bare, TypeExpr.text, TypeExpr.text, t.text_bare]
  | .map key value => by
    rw [TypeExpr.bare, TypeExpr.text, TypeExpr.text, key.text_bare, value.text_bare]
  | .channel direction t => by
    cases direction <;> rw [TypeExpr.bare, TypeExpr.text, TypeExpr.text, t.text_bare]
  | .function ps rs => by
    rw [TypeExpr.bare, TypeExpr.text, TypeExpr.text, parameterTexts_bareParameters,
      parameterTexts_bareParameters]

theorem typeTexts_bareTypes : ∀ ts : List TypeExpr, typeTexts (bareTypes ts) = typeTexts ts
  | [] => rfl
  | t :: ts => by rw [bareTypes, typeTexts, typeTexts, t.text_bare, typeTexts_bareTypes ts]

theorem parameterTexts_bareParameters :
    ∀ ps : List Parameter, parameterTexts (bareParameters ps) = parameterTexts ps
  | [] => rfl
  | .mk names variadic type :: ps => by
    rw [bareParameters, parameterTexts, parameterTexts, Parameter.text, Parameter.text,
      type.text_bare, parameterTexts_bareParameters ps]

end

theorem signature_bareParameters (ps rs : List Parameter) :
    signature (bareParameters ps) (bareParameters rs) = signature ps rs := by
  rw [signature, signature, parameterTexts_bareParameters, parameterTexts_bareParameters]

theorem TypeExpr.baseName?_bare : ∀ t : TypeExpr, t.bare.baseName? = t.baseName?
  | .generic t _ | .pointer t | .parenthesized t => t.baseName?_bare
  | .name _ | .qualified _ _ | .list _ | .map _ _ | .channel _ _ | .function _ _ | .struct _
  | .interface _ | .verbatim _ => rfl

theorem receiverName?_bareParameters (ps : List Parameter) :
    receiverName? (bareParameters ps) = receiverName? ps := by
  induction ps with
  | nil => rfl
  | cons p ps ih =>
    obtain ⟨names, variadic, type⟩ := p
    cases variadic with
    | false => exact type.baseName?_bare
    | true => exact ih

/-! ## Documents -/

/-- A function without documentation and line. -/
def Function.bare (f : Function) : Function := { f with doc := "", line := 0 }

/-- A field without documentation. -/
def StructField.bare (f : StructField) : StructField := { f with doc := "" }

/-- A struct without documentation and lines. -/
def Struct.bare (s : Struct) : Struct :=
  { s with doc := "", line := 0, fields := s.fields.map (·.bare), methods := s.methods.map (·.bare) }

/-- An interface without documentation and lines. -/
def Interface.bare (i : Interface) : Interface :=
  { i with doc := "", line := 0, methods := i.methods.map (·.bare) }

/-- A constant or a variable without documentation and line. -/
def Value.bare (v : Value) : Value := { v with doc := "", line := 0 }

/-- A file without documentation and lines. -/
def SourceFile.bare (f : SourceFile) : SourceFile :=
  { f with
    interfaces := f.interfaces.map (·.bare), structs := f.structs.map (·.bare)
    constants := f.constants.map (·.bare), vars := f.vars.map (·.bare)
    functions := f.functions.map (·.bare) }

/-! ## Declarations -/

/-- Constants or variables without lines. -/
def ValueSpec.bare (s : ValueSpec) : ValueSpec :=
  ⟨s.names.map fun (name, _) => (name, 0), s.type.map (·.bare)⟩

/-- A type with a name, without documentation and lines. -/
def TypeSpec.bare (t : TypeSpec) : TypeSpec := ⟨t.name, "", 0, t.type.bare⟩

/-- A function without the documentation and lines inside. -/
def FunctionDecl.bare (f : FunctionDecl) : FunctionDecl :=
  ⟨f.name, bareParameters f.parameters, bareParameters f.results⟩

/-- A declaration without the documentation and lines inside. -/
def Declaration.bare : Declaration → Declaration
  | .package name => .package name
  | .imports paths => .imports paths
  | .constants specs => .constants (specs.map (·.bare))
  | .vars specs => .vars (specs.map (·.bare))
  | .types specs => .types (specs.map (·.bare))
  | .function f => .function f.bare
  | .method receiver f => .method (bareParameters receiver) f.bare
  | .statement => .statement

/-- A declaration without documentation and lines. -/
def Documented.bare (d : Documented) : Documented := ⟨"", 0, d.declaration.bare⟩

theorem structFields_bare (f : Field) : f.bare.structFields = f.structFields.map (·.bare) := by
  cases f <;> simp [Field.bare, Field.structFields, StructField.bare, TypeExpr.text_bare]

theorem flatMap_structFields_bare (fs : List Field) :
    (bareFields fs).flatMap Field.structFields =
      (fs.flatMap Field.structFields).map (·.bare) := by
  simp [bareFields_eq_map, List.flatMap_map, List.map_flatMap, structFields_bare]

theorem Method.function_bare (file : String) (m : Method) :
    m.bare.function file = (m.function file).bare := by
  cases m
  simp [Method.bare, Method.function, Function.bare, signature_bareParameters]

theorem FunctionDecl.function_bare (file doc : String) (line : ℕ) (f : FunctionDecl) :
    f.bare.function file "" 0 = (f.function file doc line).bare := by
  simp [FunctionDecl.bare, FunctionDecl.function, Function.bare, signature_bareParameters]

theorem ValueSpec.values_bare (file doc : String) (s : ValueSpec) :
    s.bare.values file "" = (s.values file doc).map (·.bare) := by
  simp [ValueSpec.bare, ValueSpec.values, Value.bare, Function.comp_def, TypeExpr.text_bare]

theorem attachMethod_bare (name : String) (m : Function) (ss : List Struct) :
    attachMethod name m.bare (ss.map (·.bare)) = (attachMethod name m ss).map (·.bare) := by
  induction ss with
  | nil => rfl
  | cons s ss ih =>
    have hname : s.bare.name = s.name := rfl
    rw [List.map_cons, attachMethod, attachMethod, hname]
    split_ifs with hs
    · simp [Struct.bare]
    · rw [List.map_cons, ih]

/-! ## Files -/

namespace SourceFile

theorem bare_addType (f : SourceFile) (t : TypeSpec) :
    (f.addType t).bare = f.bare.addType t.bare := by
  obtain ⟨name, doc, line, type⟩ := t
  cases type <;>
    simp [addType, TypeSpec.bare, TypeExpr.bare, bare, Struct.bare, Interface.bare,
      bareMethods_eq_map, flatMap_structFields_bare, Method.function_bare]

theorem bare_foldl_addType (f : SourceFile) (ts : List TypeSpec) :
    (ts.foldl addType f).bare = (ts.map (·.bare)).foldl addType f.bare := by
  induction ts generalizing f with
  | nil => rfl
  | cons t ts ih => rw [List.map_cons, List.foldl_cons, List.foldl_cons, ih, bare_addType]

/-- What a declaration adds to a file is the same but for documentation and lines. -/
theorem bare_add (f : SourceFile) (d : Documented) : (f.add d).bare = f.bare.add d.bare := by
  obtain ⟨doc, line, declaration⟩ := d
  cases declaration with
  | types specs => exact bare_foldl_addType f specs
  | method receiver fn =>
    rw [add, add]
    dsimp only [Documented.bare, Declaration.bare]
    rw [receiverName?_bareParameters]
    cases receiverName? receiver with
    | none => rfl
    | some name =>
      simp [bare, FunctionDecl.function_bare f.name doc line, attachMethod_bare]
  | constants specs | vars specs =>
    simp [add, Documented.bare, Declaration.bare, bare, List.flatMap_map, List.map_flatMap,
      ValueSpec.values_bare f.name doc]
  | function fn =>
    simp [add, Documented.bare, Declaration.bare, bare,
      FunctionDecl.function_bare f.name doc line]
  | package | imports | statement => rfl

theorem ofDeclarations_concat (name : String) (ds : List Documented) (d : Documented) :
    ofDeclarations name (ds ++ [d]) = (ofDeclarations name ds).add d := by
  rw [ofDeclarations, List.foldl_append]
  rfl

/-- A file without documentation and lines is the one of its declarations without both. -/
theorem bare_ofDeclarations (name : String) (ds : List Documented) :
    (ofDeclarations name ds).bare = ofDeclarations name (ds.map (·.bare)) := by
  induction ds using List.reverseRecOn with
  | nil => rfl
  | append_singleton ds d ih =>
    rw [ofDeclarations_concat, bare_add, ih, List.map_append, List.map_singleton,
      ofDeclarations_concat]

end SourceFile

end Atlas.Golang
