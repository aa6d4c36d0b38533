import Atlas.Text

/-!
# Next.js projects

What is known of a project: components, pages with the parameters of their routes, layouts, state
modules and API routes.
-/

namespace Atlas.Nextjs

/-- Whether a component is a function or a class. -/
inductive ComponentKind where
  | functional
  | classBased
  deriving DecidableEq, Repr

/-- The word for a kind. -/
def ComponentKind.word : ComponentKind → String
  | .functional => "functional"
  | .classBased => "class"

/-- A property of a component. -/
structure ComponentProp where
  name : String
  type : String
  required : Bool
  deriving DecidableEq, Repr

/-- A hook that a component calls, with the dependencies it names. -/
structure Hook where
  name : String
  dependencies : List String := []
  deriving DecidableEq, Repr

/-- A component. Its imports are the components it takes from modules of the project. -/
structure Component where
  name : String := ""
  path : String := ""
  kind : ComponentKind := .functional
  /-- Whether it is marked to run in the browser. -/
  client : Bool := false
  /-- Whether it is marked to run on the server. -/
  server : Bool := false
  props : List ComponentProp := []
  hooks : List Hook := []
  imports : List String := []
  deriving DecidableEq, Repr

/-- The router that serves a page. -/
inductive Router where
  | app
  | pages
  deriving DecidableEq, Repr

/-- The word for a router. -/
def Router.word : Router → String
  | .app => "app"
  | .pages => "pages"

/-- A dynamic segment of a route: `[name]`, `[...name]` or `[[...name]]`. -/
structure RouteParam where
  name : String
  /-- Whether it stands for any number of segments. -/
  catchAll : Bool := false
  /-- Whether it may stand for no segment. -/
  optional : Bool := false
  deriving DecidableEq, Repr

/-- What stands between two texts that the segment starts and ends with. -/
def between? (left right segment : String) : Option String := do
  Text.dropSuffix? right (← Text.dropPrefix? left segment)

/-- The dynamic segment of a text, if it is one. -/
def RouteParam.ofSegment? (segment : String) : Option RouteParam :=
  match between? "[[..." "]]" segment with
  | some name => some ⟨name, true, true⟩
  | none =>
    match between? "[" "]" segment with
    | none => none
    | some inner =>
      match Text.dropPrefix? "..." inner with
      | some name => some ⟨name, true, false⟩
      | none => some ⟨inner, false, false⟩

/-- A page. Its layout is the path of the nearest one around it. -/
structure Page where
  route : String := ""
  path : String := ""
  router : Router := .app
  params : List RouteParam := []
  layout : Option String := none
  components : List String := []
  apis : List String := []
  deriving DecidableEq, Repr

/-- A layout. -/
structure Layout where
  name : String := ""
  route : String := ""
  path : String := ""
  root : Bool := false
  components : List String := []
  deriving DecidableEq, Repr

/-- The library that a state module is written for. -/
inductive StateLibrary where
  | redux
  | zustand
  | jotai
  | custom
  deriving DecidableEq, Repr

namespace StateLibrary

/-- The word for a library. -/
def word : StateLibrary → String
  | redux => "redux"
  | zustand => "zustand"
  | jotai => "jotai"
  | custom => "custom"

/-- The library that a source uses, by the words in it. -/
def detect (source : String) : StateLibrary :=
  let uses (words : List String) := words.any (Text.contains · source)
  if uses ["createSlice", "configureStore"] then redux
  else if uses ["zustand", "create((set)"] then zustand
  else if uses ["jotai", "atom("] then jotai
  else custom

end StateLibrary

/-- An action of a state module: a `reducer` or a `setter`. -/
structure StateAction where
  name : String
  kind : String
  deriving DecidableEq, Repr

/-- An atom of state with its first value. -/
structure Atom where
  name : String
  default : Option String
  deriving DecidableEq, Repr

/-- A state module. -/
structure StateModule where
  name : String := ""
  path : String := ""
  library : StateLibrary := .custom
  actions : List StateAction := []
  slices : List String := []
  atoms : List Atom := []
  deriving DecidableEq, Repr

/-- An API route. -/
structure Api where
  route : String := ""
  path : String := ""
  methods : List String := []
  handler : Option String := none
  middleware : List String := []
  deriving DecidableEq, Repr

/-- A project. -/
structure Project where
  name : String := ""
  components : List Component := []
  pages : List Page := []
  layouts : List Layout := []
  stateModules : List StateModule := []
  apis : List Api := []
  deriving DecidableEq, Repr

/-! ## Called addresses -/

/-- An address without the scheme and host it may start with. -/
def stripOrigin (url : String) : String :=
  match (Text.dropPrefix? "http://" url).orElse fun _ => Text.dropPrefix? "https://" url with
  | some rest =>
    match rest.toList.dropWhile (· ≠ '/') with
    | [] => "/"
    | path => String.ofList path
  | none => url

/-- The segments between slashes that are not empty. -/
def segments (path : String) : List String := (Text.splitOn '/' path).filter (· ≠ "")

/-- The segments of an address, without origin, query and fragment. -/
def calledSegments (url : String) : List String :=
  segments (String.ofList ((stripOrigin url).toList.takeWhile fun c => c ≠ '?' ∧ c ≠ '#'))

/-- Whether called segments fit declared ones. A catch-all takes all the rest; a called segment
with a placeholder fits any static one. -/
def segmentsMatch : List String → List String → Bool
  | [], called => called.isEmpty
  | d :: ds, called =>
    match RouteParam.ofSegment? d with
    | some p =>
      if p.catchAll then p.optional || !called.isEmpty
      else
        match called with
        | [] => false
        | _ :: cs => segmentsMatch ds cs
    | none =>
      match called with
      | [] => false
      | c :: cs => (c == d || Text.contains "$\x7b" c) && segmentsMatch ds cs

/-- Whether an address calls the route. -/
def Api.isCalledBy (a : Api) (url : String) : Bool :=
  segmentsMatch (segments a.route) (calledSegments url)

end Atlas.Nextjs
