import Atlas.Nextjs.Project
import Atlas.Graph

/-!
# Entities of a Next.js project

Components, pages, API routes and state modules, with the components that components and pages use
and the API routes that pages call. Only what was found in the project is related.
-/

namespace Atlas.Nextjs

/-- The entity of a component name. -/
def componentEntity (name : String) : Entity := { kind := .component, name }

/-- The entity of a page. -/
def Page.entity (p : Page) : Entity := { kind := .page, name := p.route }

/-- The entity of an API route. -/
def Api.entity (a : Api) : Entity := { kind := .api, name := a.route }

/-- The API route that an address calls: the first one that fits. -/
def Project.calledApi? (p : Project) (url : String) : Option Api :=
  p.apis.find? (·.isCalledBy url)

/-- The graph in which an entity uses those of several components that are in it. -/
def addUses (source : Entity) (g : Graph) (names : List String) : Graph :=
  names.foldl (fun g name =>
    let target := componentEntity name
    if g.has target then g.relate ⟨source, target, .uses, none⟩ else g) g

/-- The graph with the calls of a page. -/
def addCalls (project : Project) (g : Graph) (p : Page) : Graph :=
  p.apis.foldl (fun g url =>
    match project.calledApi? url with
    | some a => g.relate ⟨p.entity, a.entity, .calls, some url⟩
    | none => g) g

/-- The entities of a project. -/
def Project.entityNodes (p : Project) : List EntityNode :=
  (p.components.map fun c =>
      { entity := componentEntity c.name, attributes := [("path", c.path)] }) ++
    (p.pages.map fun q => { entity := q.entity, attributes := [("path", q.path)] }) ++
    (p.apis.map fun a =>
      { entity := a.entity, attributes := [("methods", String.intercalate "," a.methods)] }) ++
    (p.stateModules.map fun m =>
      { entity := { kind := .stateStore, name := m.name }
        attributes := [("library", m.library.word)] })

/-- The graph of a project. -/
def Project.graph (p : Project) : Graph :=
  let g := p.entityNodes.foldl Graph.addNew Graph.empty
  let g := p.components.foldl (fun g c =>
    addUses (componentEntity c.name) g (c.imports.filter (· ≠ c.name))) g
  p.pages.foldl (fun g q => addCalls p (addUses q.entity g q.components) q) g

end Atlas.Nextjs
