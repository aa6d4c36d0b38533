import Atlas.Nextjs.Project
import Atlas.Data.Fields

/-!
# Next.js records

A project as plain data, and back.
-/

namespace Atlas.Nextjs

/-- A property as plain data. -/
def ComponentProp.toData (p : ComponentProp) : Data :=
  .record [("name", .text p.name), ("type", .text p.type), ("required", .bool p.required)]

/-- A component as plain data. -/
def Component.toData (c : Component) : Data :=
  .record [("name", .text c.name), ("path", .text c.path), ("kind", .text c.kind.word),
    ("client", .bool c.client), ("server", .bool c.server),
    ("props", .list (c.props.map (·.toData))),
    ("hooks", .list (c.hooks.map fun h =>
      .record ([("name", .text h.name)] ++
        Data.listMember? "dependencies" (h.dependencies.map .text)))),
    ("imports", .texts c.imports)]

/-- A parameter as plain data. -/
def RouteParam.toData (p : RouteParam) : Data :=
  .record [("name", .text p.name), ("catch_all", .bool p.catchAll),
    ("optional", .bool p.optional)]

/-- A page as plain data. -/
def Page.toData (p : Page) : Data :=
  .record ([("route", .text p.route), ("path", .text p.path), ("router", .text p.router.word),
    ("params", .list (p.params.map (·.toData)))] ++ Data.member? "layout" (p.layout.map .text) ++
    [("components", .texts p.components), ("apis", .texts p.apis)])

/-- A layout as plain data. -/
def Layout.toData (l : Layout) : Data :=
  .record [("name", .text l.name), ("route", .text l.route), ("path", .text l.path),
    ("root", .bool l.root), ("components", .texts l.components)]

/-- A state module as plain data. -/
def StateModule.toData (m : StateModule) : Data :=
  .record [("name", .text m.name), ("path", .text m.path), ("library", .text m.library.word),
    ("actions", .list (m.actions.map fun a =>
      .record [("name", .text a.name), ("kind", .text a.kind)])),
    ("slices", .texts m.slices),
    ("atoms", .list (m.atoms.map fun a =>
      .record [("name", .text a.name), ("default", .optionalText a.default)]))]

/-- An API route as plain data. -/
def Api.toData (a : Api) : Data :=
  .record [("route", .text a.route), ("path", .text a.path), ("methods", .texts a.methods),
    ("handler", .optionalText a.handler), ("middleware", .texts a.middleware)]

/-- A project as plain data. -/
def Project.toData (p : Project) : Data :=
  .record [("name", .text p.name), ("components", .list (p.components.map (·.toData))),
    ("pages", .list (p.pages.map (·.toData))), ("layouts", .list (p.layouts.map (·.toData))),
    ("state_modules", .list (p.stateModules.map (·.toData))),
    ("apis", .list (p.apis.map (·.toData)))]

/-! ## Reading -/

/-- The kind of a component in a word; components are functions unless said otherwise. -/
def ComponentKind.ofWord (s : String) : ComponentKind := if s = "class" then .classBased else .functional

/-- The component of a record. -/
def Component.ofData (d : Data) : Component :=
  { name := d.textOf "name", path := d.textOf "path", kind := .ofWord (d.textOf "kind")
    client := d.flagOf "client", server := d.flagOf "server"
    props := Data.listOf (fun p => ⟨p.textOf "name", p.textOf "type", p.flagOf "required"⟩) d "props"
    hooks := Data.listOf (fun h => ⟨h.textOf "name", h.textsOf "dependencies"⟩) d "hooks"
    imports := d.textsOf "imports" }

/-- The router of a word. -/
def Router.ofWord (s : String) : Router := if s = "pages" then .pages else .app

/-- The page of a record. -/
def Page.ofData (d : Data) : Page :=
  { route := d.textOf "route", path := d.textOf "path", router := .ofWord (d.textOf "router")
    params := Data.listOf
      (fun p => ⟨p.textOf "name", p.flagOf "catch_all", p.flagOf "optional"⟩) d "params"
    layout := d.textOf? "layout", components := d.textsOf "components", apis := d.textsOf "apis" }

/-- The layout of a record. -/
def Layout.ofData (d : Data) : Layout :=
  ⟨d.textOf "name", d.textOf "route", d.textOf "path", d.flagOf "root", d.textsOf "components"⟩

/-- The library of a word. -/
def StateLibrary.ofWord : String → StateLibrary
  | "redux" => .redux
  | "zustand" => .zustand
  | "jotai" => .jotai
  | _ => .custom

/-- The state module of a record. -/
def StateModule.ofData (d : Data) : StateModule :=
  { name := d.textOf "name", path := d.textOf "path", library := .ofWord (d.textOf "library")
    actions := Data.listOf (fun a => ⟨a.textOf "name", a.textOf "kind"⟩) d "actions"
    slices := d.textsOf "slices"
    atoms := Data.listOf (fun a => ⟨a.textOf "name", a.textOf? "default"⟩) d "atoms" }

/-- The API route of a record. -/
def Api.ofData (d : Data) : Api :=
  ⟨d.textOf "route", d.textOf "path", d.textsOf "methods", d.textOf? "handler",
    d.textsOf "middleware"⟩

/-- The project of a record. -/
def Project.ofData (d : Data) : Project :=
  { name := d.textOf "name", components := Data.listOf Component.ofData d "components"
    pages := Data.listOf Page.ofData d "pages", layouts := Data.listOf Layout.ofData d "layouts"
    stateModules := Data.listOf StateModule.ofData d "state_modules"
    apis := Data.listOf Api.ofData d "apis" }

end Atlas.Nextjs
