import Atlas.Nextjs.Rules
import Atlas.Files.System

/-!
# Scanning a Next.js project

The project below a root directory: sources in `components`, `app`, `pages`, `store` and `state`,
below `src` first and then below the root itself. Each page of the app router gets the layout in
the deepest directory around it (`assignLayouts`).
-/

namespace Atlas.Nextjs

/-! ## Routes -/

/-- The route of the parts of a directory of the app router. Groups in brackets and slots with an
at sign are no part of it. -/
def appRouteOf (parts : List String) : String :=
  let shown := parts.filter fun s =>
    !(Text.startsWith "(" s && Text.endsWith ")" s) && !Text.startsWith "@" s
  "/" ++ String.intercalate "/" shown

/-- The route of a directory of the app router. -/
def appRoute (directory : String) : String := appRouteOf (Path.parts directory)

/-- The parts of a path without the extension of its last name. A single dot before the extension
becomes two of them, since the dot of the extension goes only from a name that is left. -/
def withoutExtension (path : String) : List String :=
  let parts := Path.parts path
  match Path.fileName? path with
  | some name =>
    let stem := Path.stem name
    parts.dropLast ++ [if stem = "." ∧ name ≠ "." then ".." else stem]
  | none => parts

/-- The route of a file of the pages router. An index stands for its directory. -/
def pagesRoute (file : String) : String :=
  let parts := withoutExtension file
  let parts := if parts.getLast? = some "index" then parts.dropLast else parts
  "/" ++ String.intercalate "/" parts

/-- The parameters of a route. -/
def routeParams (route : String) : List RouteParam :=
  (Text.splitOn '/' route).filterMap RouteParam.ofSegment?

/-! ## Sources -/

/-- A source: the names of its path below the root, those below the directory it was looked for
in, and its text. -/
structure Source where
  names : List String
  below : List String
  text : String

namespace Source

/-- The path below the root. -/
def path (s : Source) : String := Path.ofNames s.names

/-- The name of the file. -/
def fileName (s : Source) : String := s.names.getLast?.getD ""

/-- The stem of the name of the file. -/
def stem (s : Source) : String := Path.stem s.fileName

/-- Whether the file has one of these extensions. -/
def hasExtension (s : Source) (allowed : List String) : Bool :=
  (Path.extension? s.fileName).any allowed.contains

/-- Whether the file stands in the directory of API routes. -/
def isApi (s : Source) : Bool := s.below.head? == some "api"

end Source

/-- The scripts below a directory of the project. -/
def scripts (root : FileTree) (directory : List String) : List Source :=
  match root.at? directory with
  | some (.directory es) =>
    ((FileTree.directory es).sourceFiles.map fun f =>
      { names := directory ++ f.path, below := f.path, text := Utf8.decodeLossy f.content :
        Source }).filter (·.hasExtension ["tsx", "jsx", "js", "ts"])
  | _ => []

/-- The places of a directory: below the sources, and below the root. -/
def places (name : String) : List (List String) := [["src", name], [name]]

/-! ## Elements -/

/-- The component of a source, if its name is one of a component. An index is named for its
directory. -/
def componentOf? (s : Source) : Option Component :=
  let name := if s.stem = "index" then s.names.dropLast.getLast?.getD "" else s.stem
  if s.hasExtension ["tsx", "jsx", "js"] && isComponentName name then
    some (componentRules.apply s.text { name, path := s.path })
  else none

/-- The API route of a source. Without a method of its own it answers `GET`. -/
def apiOf (s : Source) (route : String) : Api :=
  let a := apiRules.apply s.text { route, path := s.path }
  if a.methods.isEmpty then { a with methods := ["GET"] } else a

/-- The page of a source. -/
def pageOf (s : Source) (route : String) (router : Router) : Page :=
  pageRules.apply s.text { route, path := s.path, router, params := routeParams route }

/-- The layout of a source. -/
def layoutOf (s : Source) (route : String) : Layout :=
  let root := route == "/"
  layoutRules.apply s.text
    { name := if root then "RootLayout" else "Layout", route, path := s.path, root }

/-- The project with what a source of the app router declares. -/
def addAppSource (p : Project) (s : Source) : Project :=
  let route := appRouteOf s.below.dropLast
  if s.isApi && s.stem == "route" then { p with apis := p.apis ++ [apiOf s route] }
  else if !s.isApi && s.stem == "page" && !s.hasExtension ["ts"] then
    { p with pages := p.pages ++ [pageOf s route .app] }
  else if !s.isApi && s.stem == "layout" then
    { p with layouts := p.layouts ++ [layoutOf s route] }
  else p

/-- The project with what a source of the pages router declares. -/
def addPagesSource (p : Project) (s : Source) : Project :=
  let route := pagesRoute (String.intercalate "/" s.below)
  if s.isApi then { p with apis := p.apis ++ [apiOf s route] }
  else if Text.startsWith "_" s.stem || s.hasExtension ["ts"] then p
  else { p with pages := p.pages ++ [pageOf s route .pages] }

/-- The rules for the state modules of a library. -/
def StateLibrary.rules : StateLibrary → RuleSet StateModule
  | .redux => reduxRules
  | .zustand => zustandRules
  | .jotai => jotaiRules
  | .custom => []

/-- The state module of a source. -/
def stateModuleOf (s : Source) : StateModule :=
  let library := StateLibrary.detect s.text
  library.rules.apply s.text { name := s.stem, path := s.path, library }

/-! ## Layouts -/

/-- The parts of the directory of a layout, if it encloses a path. -/
def Layout.enclosing? (l : Layout) (path : String) : Option (List String) :=
  (Path.parentParts? l.path).filter (·.isPrefixOf (Path.parts path))

/-- The layout in the deepest directory around a path; of several there the last one. -/
def deepestLayout? (layouts : List Layout) (path : String) : Option Layout :=
  (layouts.foldl (fun best l =>
    match l.enclosing? path, best with
    | none, _ => best
    | some d, none => some (d.length, l)
    | some d, some (depth, l') => if depth ≤ d.length then some (d.length, l) else some (depth, l'))
    (none : Option (Nat × Layout))).map (·.2)

/-- The page with its layout, if the app router serves it. -/
def assignLayout (layouts : List Layout) (p : Page) : Page :=
  if p.router = .app then { p with layout := (deepestLayout? layouts p.path).map (·.path) } else p

/-- The project with the layouts of its pages. -/
def assignLayouts (p : Project) : Project :=
  { p with pages := p.pages.map (assignLayout p.layouts) }

/-! ## Projects -/

/-- The project with the sources of both routers below one place. -/
def addRouters (root : FileTree) (p : Project) (base : List String) : Project :=
  let p := (scripts root (base ++ ["app"])).foldl addAppSource p
  (scripts root (base ++ ["pages"])).foldl addPagesSource p

/-- The project of a tree. -/
def projectOf (name : String) (root : FileTree) : Project :=
  let p : Project :=
    { name
      components := ((places "components").flatMap (scripts root)).filterMap componentOf? }
  let p := [["src"], []].foldl (addRouters root) p
  let stateDirectories := [["src", "store"], ["src", "state"], ["store"], ["state"]]
  assignLayouts
    { p with stateModules := (stateDirectories.flatMap (scripts root)).map stateModuleOf }

/-- The project at a path. -/
def scan (fs : FileSystem) (path : String) : Result Project :=
  match fs.get? path with
  | none => .error (.pathNotFound path)
  | some root => .ok (projectOf (fs.projectName path) root)

end Atlas.Nextjs
