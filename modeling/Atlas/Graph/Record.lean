import Atlas.Data.Fields
import Atlas.Graph

/-!
# Graph records

Entities and relations as plain data, and entities back.
-/

namespace Atlas

/-- An entity as plain data. -/
def Entity.toData (e : Entity) : Data :=
  .record ([("kind", .text e.kind.code), ("name", .text e.name)] ++
    Data.member? "scope" (e.scope.map .text))

/-- An entity with what is known of it as plain data. -/
def EntityNode.toData (n : EntityNode) : Data :=
  .record ([("entity", n.entity.toData)] ++ Data.member? "doc" (n.doc.map .text) ++
    Data.listMember? "attributes" (n.attributes.map fun (k, v) => .list [.text k, .text v]) ++
    [("dangling", .bool n.dangling)])

/-- A relation as plain data. -/
def Relation.toData (r : Relation) : Data :=
  .record ([("from", r.source.toData), ("to", r.target.toData), ("kind", .text r.kind.code)] ++
    Data.member? "label" (r.label.map .text))

/-! ## Reading -/

/-- The entity of a record; one of an unknown kind is a resource. -/
def Entity.ofData (d : Data) : Entity :=
  ⟨(EntityKind.ofCode? (d.textOf "kind")).getD .resource, d.textOf "name", d.textOf? "scope"⟩

/-- The relation kind of a word; for an unknown one it is `uses`. -/
def RelationKind.ofData (d : Data) : RelationKind := (ofCode? d.toText).getD .uses

end Atlas
