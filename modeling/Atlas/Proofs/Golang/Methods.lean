import Atlas.Golang.Document
import Mathlib.Data.List.Induction

/-!
# Structs with their methods

A file is documented declaration by declaration, and a method is added to a struct that is already
there. So the structs of a file are those of its declarations, each with the methods that are
declared after it for its name, and a struct whose name has been declared before has none
(`structs_ofDeclarations`). Its interfaces are those of its declarations
(`interfaces_ofDeclarations`).
-/

set_option linter.unusedSectionVars false

namespace Atlas.Golang

/-! ## Declared structs and interfaces -/

/-- A method that a file declares, with its documentation and line. -/
structure MethodDecl where
  doc : String
  line : Nat
  declaration : FunctionDecl

/-- A struct that a file declares, with the methods that belong to it. -/
structure StructDecl where
  spec : TypeSpec
  fields : List Field
  methods : List MethodDecl

/-- An interface that a file declares. -/
structure InterfaceDecl where
  spec : TypeSpec
  methods : List Method

/-- A declared struct, or a method with the name of the type it is declared for. -/
inductive Item where
  | struct (spec : TypeSpec) (fields : List Field)
  | method (receiver : String) (m : MethodDecl)

/-- The documentation of a method. -/
def MethodDecl.function (file : String) (m : MethodDecl) : Function :=
  m.declaration.function file m.doc m.line

/-- The documentation of a struct. -/
def StructDecl.document (file : String) (s : StructDecl) : Struct :=
  { name := s.spec.name, doc := s.spec.doc, file, line := s.spec.line
    fields := s.fields.flatMap Field.structFields, methods := s.methods.map (·.function file) }

/-- The documentation of an interface. -/
def InterfaceDecl.document (file : String) (i : InterfaceDecl) : Interface :=
  { name := i.spec.name, doc := i.spec.doc, file, line := i.spec.line
    methods := i.methods.map (Method.function file) }

/-- The struct of a type, if it is one. -/
def TypeSpec.item? (t : TypeSpec) : Option Item :=
  match t.type with
  | .struct fields => some (.struct t fields)
  | _ => none

/-- The interface of a type, if it is one. -/
def TypeSpec.interface? (t : TypeSpec) : Option InterfaceDecl :=
  match t.type with
  | .interface methods => some ⟨t, methods⟩
  | _ => none

/-- The structs and methods of a declaration. Methods with another receiver than a name are none. -/
def Documented.items (d : Documented) : List Item :=
  match d.declaration with
  | .types specs => specs.filterMap (·.item?)
  | .method receiver f =>
    match receiverName? receiver with
    | some name => [.method name ⟨d.doc, d.line, f⟩]
    | none => []
  | _ => []

/-- The interfaces of a declaration. -/
def Documented.interfaces (d : Documented) : List InterfaceDecl :=
  match d.declaration with
  | .types specs => specs.filterMap (·.interface?)
  | _ => []

/-- The method of an item, if it is one that is declared for this name. -/
def Item.methodOf? (name : String) : Item → Option MethodDecl
  | .struct .. => none
  | .method receiver m => if receiver = name then some m else none

/-- The structs among items, each with the methods after it that are declared for its name. A struct
with a name that is known already has none. -/
def structsAmong : List String → List Item → List StructDecl
  | _, [] => []
  | known, .struct spec fields :: items =>
    ⟨spec, fields, if spec.name ∈ known then [] else items.filterMap (Item.methodOf? spec.name)⟩ ::
      structsAmong (spec.name :: known) items
  | known, .method .. :: items => structsAmong known items

/-- The structs that declarations declare. -/
def declaredStructs (ds : List Documented) : List StructDecl :=
  structsAmong [] (ds.flatMap (·.items))

/-- The interfaces that declarations declare. -/
def declaredInterfaces (ds : List Documented) : List InterfaceDecl := ds.flatMap (·.interfaces)

/-! ## One item more -/

/-- The structs with what one more item adds to them. -/
def addItem (file : String) (ss : List Struct) : Item → List Struct
  | .struct spec fields => ss ++ [StructDecl.document file ⟨spec, fields, []⟩]
  | .method receiver m => attachMethod receiver (m.function file) ss

theorem structsAmong_append_struct (known : List String) (items : List Item) (spec : TypeSpec)
    (fields : List Field) : structsAmong known (items ++ [.struct spec fields]) =
      structsAmong known items ++ [⟨spec, fields, []⟩] := by
  induction items generalizing known with
  | nil => simp [structsAmong]
  | cons item items ih =>
    cases item with
    | method => simp [structsAmong, ih]
    | struct =>
      have hnone : ∀ name, [Item.struct spec fields].filterMap (Item.methodOf? name) = [] :=
        fun _ => rfl
      simp [structsAmong, ih, hnone]

theorem structsAmong_append_method (file : String) (known : List String) (items : List Item)
    (receiver : String) (m : MethodDecl) :
    (structsAmong known (items ++ [.method receiver m])).map (·.document file) =
      if receiver ∈ known then (structsAmong known items).map (·.document file)
      else attachMethod receiver (m.function file)
        ((structsAmong known items).map (·.document file)) := by
  induction items generalizing known with
  | nil => simp [structsAmong, attachMethod]
  | cons item items ih =>
    cases item with
    | method => simp [structsAmong, ih]
    | struct spec fields =>
      have hlast : [Item.method receiver m].filterMap (Item.methodOf? spec.name) =
          if receiver = spec.name then [m] else [] := by
        by_cases h : receiver = spec.name <;> simp [Item.methodOf?, h]
      simp only [List.cons_append, structsAmong, List.map_cons, ih, List.filterMap_append, hlast]
      by_cases hname : receiver = spec.name
      · subst hname
        by_cases hknown : spec.name ∈ known <;>
          simp [hknown, attachMethod, StructDecl.document]
      · by_cases hknown : receiver ∈ known <;>
          simp [hname, Ne.symm hname, hknown, attachMethod, StructDecl.document]

theorem foldl_addItem (file : String) (items : List Item) :
    items.foldl (addItem file) [] = (structsAmong [] items).map (·.document file) := by
  induction items using List.reverseRecOn with
  | nil => rfl
  | append_singleton items item ih =>
    rw [List.foldl_append, ih]
    cases item with
    | struct spec fields => simp [addItem, structsAmong_append_struct]
    | method receiver m =>
      rw [structsAmong_append_method, if_neg List.not_mem_nil]
      rfl

/-! ## Files -/

namespace SourceFile

theorem name_addType (f : SourceFile) (t : TypeSpec) : (f.addType t).name = f.name := by
  unfold addType
  split <;> rfl

theorem structs_addType (f : SourceFile) (t : TypeSpec) :
    (f.addType t).structs = t.item?.toList.foldl (addItem f.name) f.structs := by
  unfold addType TypeSpec.item?
  cases t.type <;> rfl

theorem interfaces_addType (f : SourceFile) (t : TypeSpec) :
    (f.addType t).interfaces = f.interfaces ++ t.interface?.toList.map (·.document f.name) := by
  unfold addType TypeSpec.interface?
  cases t.type <;> simp [InterfaceDecl.document]

/-- What types add to a file. -/
theorem foldl_addType (f : SourceFile) (ts : List TypeSpec) :
    (ts.foldl addType f).name = f.name ∧
    (ts.foldl addType f).structs = (ts.filterMap (·.item?)).foldl (addItem f.name) f.structs ∧
    (ts.foldl addType f).interfaces =
      f.interfaces ++ (ts.filterMap (·.interface?)).map (·.document f.name) := by
  induction ts using List.reverseRecOn with
  | nil => simp
  | append_singleton ts t ih =>
    obtain ⟨hname, hstructs, hinterfaces⟩ := ih
    rw [List.foldl_append, List.foldl_cons, List.foldl_nil, name_addType, structs_addType,
      interfaces_addType, hname, hstructs, hinterfaces]
    refine ⟨rfl, ?_, ?_⟩
    · cases h : t.item? <;> simp [h]
    · cases h : t.interface? <;> simp [h]

/-- What a declaration adds to a file. -/
theorem add_spec (f : SourceFile) (d : Documented) :
    (f.add d).name = f.name ∧ (f.add d).structs = d.items.foldl (addItem f.name) f.structs ∧
    (f.add d).interfaces = f.interfaces ++ d.interfaces.map (·.document f.name) := by
  unfold add Documented.items Documented.interfaces
  cases d.declaration with
  | types specs => exact foldl_addType f specs
  | method receiver fn =>
    cases h : receiverName? receiver <;> simp [h, addItem, MethodDecl.function]
  | _ => simp

theorem foldl_add (f : SourceFile) (ds : List Documented) :
    (ds.foldl add f).name = f.name ∧
    (ds.foldl add f).structs = (ds.flatMap (·.items)).foldl (addItem f.name) f.structs ∧
    (ds.foldl add f).interfaces =
      f.interfaces ++ (declaredInterfaces ds).map (·.document f.name) := by
  induction ds using List.reverseRecOn with
  | nil => simp [declaredInterfaces]
  | append_singleton ds d ih =>
    obtain ⟨hname, hstructs, hinterfaces⟩ := ih
    obtain ⟨hname', hstructs', hinterfaces'⟩ := add_spec (ds.foldl add f) d
    rw [List.foldl_append, List.foldl_cons, List.foldl_nil, hname', hstructs', hinterfaces', hname,
      hstructs, hinterfaces]
    simp [declaredInterfaces]

/-- The structs of a file are those declared, each with its methods. -/
theorem structs_ofDeclarations (name : String) (ds : List Documented) :
    (ofDeclarations name ds).structs = (declaredStructs ds).map (·.document name) :=
  (foldl_add { name } ds).2.1.trans (foldl_addItem name _)

/-- The interfaces of a file are those declared. -/
theorem interfaces_ofDeclarations (name : String) (ds : List Documented) :
    (ofDeclarations name ds).interfaces = (declaredInterfaces ds).map (·.document name) :=
  (foldl_add { name } ds).2.2.trans (List.nil_append _)

end SourceFile

end Atlas.Golang
