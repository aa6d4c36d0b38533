import Atlas.Swagger.Spec
import Atlas.Text

/-!
# Endpoints

The operations of a description with their verbs and paths, in the order of paths and then of verbs,
and their groups by tag.
-/

namespace Atlas.Swagger

/-- An operation on a path. -/
structure Endpoint where
  verb : Verb
  path : String
  operation : Operation
  /-- The parameters that all operations on the path share. -/
  shared : List Parameter

namespace Endpoint

/-- The tag under which it is listed. -/
def tag (e : Endpoint) : String := e.operation.tags.head?.getD "default"

/-- Its name: what the description calls it, or else the verb with the path. -/
def name (e : Endpoint) : String :=
  match e.operation.id with
  | some id => id
  | none =>
    let path := (e.path.toList.filter fun c => c != '{' && c != '}').map fun c =>
      if c = '/' then '_' else c
    e.verb.word ++ "_" ++ Text.trimWhile (· == '_') (String.ofList path)

/-- The shared parameters and then its own. -/
def parameters (e : Endpoint) : List Parameter := e.shared ++ e.operation.parameters

end Endpoint

/-- The operations on a path. -/
def PathItem.endpoints (path : String) (item : PathItem) : List Endpoint :=
  Verb.all.filterMap fun verb =>
    (item.operation verb).map fun o => ⟨verb, path, o, item.parameters⟩

/-- Every operation. -/
def Spec.endpoints (s : Spec) : List Endpoint :=
  s.paths.flatMap fun (path, item) => item.endpoints path

/-- The groups with one more endpoint. -/
def addToGroup (groups : List (String × List Endpoint)) (e : Endpoint) :
    List (String × List Endpoint) :=
  Data.insertMember e.tag ((groups.lookup e.tag).getD [] ++ [e]) groups

/-- The operations by tag, in the order of tags. -/
def Spec.groups (s : Spec) : List (String × List Endpoint) := s.endpoints.foldl addToGroup []

end Atlas.Swagger
