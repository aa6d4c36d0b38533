import Atlas.Data.Basic

/-!
# API descriptions

What a description says of an API: its paths with the operations on them, their parameters and
bodies, and the schemas that these refer to. Everything with a name stands in the order of names.
-/

namespace Atlas.Swagger

/-- The shape of a value. -/
inductive Schema where
  | mk (type format : Option String) (properties : List (String × Schema)) (items : Option Schema)
    (reference : Option String) (sample : Option Data) (values : List Data)
  deriving Inhabited

namespace Schema

/-- The word for the type. -/
def type : Schema → Option String
  | mk t _ _ _ _ _ _ => t

/-- The word for the format of a text. -/
def format : Schema → Option String
  | mk _ f _ _ _ _ _ => f

/-- The members of a record, with their shapes. -/
def properties : Schema → List (String × Schema)
  | mk _ _ p _ _ _ _ => p

/-- The shape of the items of a list. -/
def items : Schema → Option Schema
  | mk _ _ _ i _ _ _ => i

/-- The schema that is meant in place of this one. -/
def reference : Schema → Option String
  | mk _ _ _ _ r _ _ => r

/-- A value of this shape that the description shows. -/
def sample : Schema → Option Data
  | mk _ _ _ _ _ e _ => e

/-- The values, where only these are allowed. -/
def values : Schema → List Data
  | mk _ _ _ _ _ _ v => v

end Schema

/-- What a description says of itself. -/
structure Info where
  title : String := ""
  version : String := ""
  description : Option String := none

/-- A place where the API is served. -/
structure Server where
  url : String
  description : Option String := none

/-- A parameter of an operation. -/
structure Parameter where
  name : String
  /-- Where it is sent: in the path, the query, a header or the body. -/
  location : String
  required : Bool := false
  description : Option String := none
  schema : Option Schema := none
  sample : Option Data := none

/-- A body in one format. -/
structure MediaType where
  schema : Option Schema := none
  sample : Option Data := none

/-- An operation. -/
structure Operation where
  summary : Option String := none
  description : Option String := none
  id : Option String := none
  tags : List String := []
  parameters : List Parameter := []
  /-- The body by its formats, if one is sent. -/
  body : Option (List (String × MediaType)) := none
  /-- How a caller proves who it is; an empty list says that nobody has to. -/
  security : Option (List Data) := none

/-- How an operation is asked for. -/
inductive Verb where
  | get
  | post
  | put
  | patch
  | delete
  | head
  | options
  deriving DecidableEq, Repr

/-- Every verb, in the order in which the operations of a path are listed. -/
def Verb.all : List Verb := [.get, .post, .put, .patch, .delete, .head, .options]

/-- The word for a verb. -/
def Verb.word : Verb → String
  | .get => "get"
  | .post => "post"
  | .put => "put"
  | .patch => "patch"
  | .delete => "delete"
  | .head => "head"
  | .options => "options"

/-- The word for a verb as a request says it. -/
def Verb.upper : Verb → String
  | .get => "GET"
  | .post => "POST"
  | .put => "PUT"
  | .patch => "PATCH"
  | .delete => "DELETE"
  | .head => "HEAD"
  | .options => "OPTIONS"

/-- A path, with the operations on it and the parameters that they share. -/
structure PathItem where
  operation : Verb → Option Operation := fun _ => none
  parameters : List Parameter := []

/-- A description of an API. -/
structure Spec where
  /-- The version of the older format, if it is in that one. -/
  swagger : Option String := none
  /-- The version of the newer format, if it is in that one. -/
  openapi : Option String := none
  info : Info := {}
  host : Option String := none
  basePath : Option String := none
  servers : List Server := []
  paths : List (String × PathItem) := []
  /-- The schemas of the newer format, if it has a place for them. -/
  components : Option (List (String × Schema)) := none
  /-- The schemas of the older format. -/
  definitions : List (String × Schema) := []

/-- Where the API is served. -/
def Spec.baseUrl (s : Spec) : String :=
  match s.servers, s.host with
  | server :: _, _ => server.url
  | [], some host => "https://" ++ host ++ s.basePath.getD ""
  | [], none => "http://localhost:8080"

end Atlas.Swagger
