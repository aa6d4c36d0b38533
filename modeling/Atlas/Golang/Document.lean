import Atlas.Chars.Utf8
import Atlas.Error
import Atlas.Golang.Grammar.File
import Atlas.Golang.Project

/-!
# Documenting Go files

The declarations of a file become its documentation one after another. A method is added to the
first struct of its receiver's name that was declared before it, and is left out if there is none.
-/

namespace Atlas.Golang

/-- The fields that one field of the grammar stands for. -/
def Field.structFields : Field → List StructField
  | .named names type tag doc => names.map fun name => { name, type := type.text, tag, doc }
  | .embedded pointer type tag doc =>
    let text := if pointer then "*" ++ type.text else type.text
    [{ name := text, type := text, tag, doc }]

/-- The text of parameters and results. -/
def signature (parameters results : List Parameter) : String :=
  signatureText (parameterTexts parameters) (parameterTexts results)

/-- A method of an interface. -/
def Method.function (file : String) : Method → Function
  | .mk name doc line ps rs => { name, doc, signature := signature ps rs, file, line }

/-- The constants or variables of a specification. -/
def ValueSpec.values (file doc : String) (s : ValueSpec) : List Value :=
  let type := (s.type.map (·.text)).getD ""
  s.names.map fun (name, line) => { name, type, doc, file, line }

/-- A function or a method. -/
def FunctionDecl.function (file doc : String) (line : Nat) (f : FunctionDecl) : Function :=
  { name := f.name, doc, signature := signature f.parameters f.results, file, line }

/-- The structs with one more method of the first one of this name. -/
def attachMethod (name : String) (m : Function) : List Struct → List Struct
  | [] => []
  | s :: ss =>
    if s.name = name then { s with methods := s.methods ++ [m] } :: ss
    else s :: attachMethod name m ss

namespace SourceFile

/-- The file with one more type, if that is a struct or an interface. -/
def addType (f : SourceFile) (t : TypeSpec) : SourceFile :=
  match t.type with
  | .struct fields =>
    { f with
      structs := f.structs ++ [{ name := t.name, doc := t.doc, file := f.name, line := t.line
                                 fields := fields.flatMap Field.structFields }] }
  | .interface methods =>
    { f with
      interfaces := f.interfaces ++ [{ name := t.name, doc := t.doc, file := f.name, line := t.line
                                       methods := methods.map (Method.function f.name) }] }
  | _ => f

/-- The file with one more declaration. -/
def add (f : SourceFile) (d : Documented) : SourceFile :=
  match d.declaration with
  | .package name => { f with package := name }
  | .imports paths => { f with imports := f.imports ++ paths }
  | .constants specs =>
    { f with constants := f.constants ++ specs.flatMap (ValueSpec.values f.name d.doc) }
  | .vars specs =>
    { f with vars := f.vars ++ specs.flatMap (ValueSpec.values f.name d.doc) }
  | .types specs => specs.foldl addType f
  | .function fn => { f with functions := f.functions ++ [fn.function f.name d.doc d.line] }
  | .method receiver fn =>
    match receiverName? receiver with
    | some name =>
      { f with structs := attachMethod name (fn.function f.name d.doc d.line) f.structs }
    | none => f
  | .statement => f

/-- The file that some declarations make. -/
def ofDeclarations (name : String) (ds : List Documented) : SourceFile := ds.foldl add { name }

/-- The file of a source. -/
def read (name : String) (source : Source) : Result SourceFile :=
  match declarations? source with
  | some ds => .ok (ofDeclarations name ds)
  | none => .error (.parse name "syntax error")

/-- The file of some bytes. -/
def ofBytes (name : String) (bytes : List UInt8) : Result SourceFile :=
  read name (Utf8.decodeParts none bytes)

end SourceFile

end Atlas.Golang
