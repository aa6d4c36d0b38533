import Atlas.Swagger.Spec

/-!
# API records

Descriptions of APIs as plain data. What a description does not say is left out.
-/

namespace Atlas.Swagger

/-- A member with a text, if there is one. -/
def textMember? (name : String) (s : Option String) : List (String × Data) :=
  Data.member? name (s.map .text)

/-- A member with a record, if that has members. -/
def recordMember? (name : String) (ms : List (String × Data)) : List (String × Data) :=
  if ms.isEmpty then [] else [(name, .record ms)]

mutual

/-- A schema as plain data. -/
def Schema.toData : Schema → Data
  | .mk type format properties items reference sample values =>
    .record (textMember? "type" type ++ textMember? "format" format ++
      recordMember? "properties" (schemasData properties) ++
      Data.member? "items" (itemsData items) ++ textMember? "$ref" reference ++
      Data.member? "example" sample ++ Data.listMember? "enum" values)

/-- Named schemas as plain data. -/
def schemasData : List (String × Schema) → List (String × Data)
  | [] => []
  | (name, s) :: r => (name, s.toData) :: schemasData r

/-- The shape of items as plain data. -/
def itemsData : Option Schema → Option Data
  | none => none
  | some s => some s.toData

end

/-- A parameter as plain data. -/
def Parameter.toData (p : Parameter) : Data :=
  .record ([("name", .text p.name), ("in", .text p.location), ("required", .bool p.required)] ++
    textMember? "description" p.description ++ Data.member? "schema" (p.schema.map (·.toData)) ++
    Data.member? "x-example" p.sample)

/-- A body in one format as plain data. -/
def MediaType.toData (m : MediaType) : Data :=
  .record (Data.member? "schema" (m.schema.map (·.toData)) ++ Data.member? "example" m.sample)

/-- An operation as plain data. -/
def Operation.toData (o : Operation) : Data :=
  let content (ms : List (String × MediaType)) : Data :=
    .record [("content", .record (ms.map fun (format, m) => (format, m.toData)))]
  .record (textMember? "summary" o.summary ++ textMember? "description" o.description ++
    textMember? "operationId" o.id ++ Data.listMember? "tags" (o.tags.map .text) ++
    Data.listMember? "parameters" (o.parameters.map (·.toData)) ++
    Data.member? "requestBody" (o.body.map content) ++
    Data.member? "security" (o.security.map .list))

/-- A path as plain data. -/
def PathItem.toData (p : PathItem) : Data :=
  .record ((Verb.all.flatMap fun verb =>
      Data.member? verb.word ((p.operation verb).map (·.toData))) ++
    Data.listMember? "parameters" (p.parameters.map (·.toData)))

/-- What a description says of itself as plain data. -/
def Info.toData (i : Info) : Data :=
  .record ([("title", .text i.title), ("version", .text i.version)] ++
    textMember? "description" i.description)

/-- A description as plain data. -/
def Spec.toData (s : Spec) : Data :=
  let server (s : Server) : Data :=
    .record (("url", .text s.url) :: textMember? "description" s.description)
  let components (ss : List (String × Schema)) : Data :=
    .record [("schemas", .record (schemasData ss))]
  .record (textMember? "swagger" s.swagger ++ textMember? "openapi" s.openapi ++
    [("info", s.info.toData)] ++ textMember? "host" s.host ++ textMember? "basePath" s.basePath ++
    Data.listMember? "servers" (s.servers.map server) ++
    [("paths", .record (s.paths.map fun (path, item) => (path, item.toData)))] ++
    Data.member? "components" (s.components.map components) ++
    recordMember? "definitions" (schemasData s.definitions))

end Atlas.Swagger
