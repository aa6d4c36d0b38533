import Atlas.Nextjs.Project
import Atlas.Pattern.Rule

/-!
# Next.js rules

The pattern rules that read components, pages, layouts, state modules and API routes out of
scripts.
-/

namespace Atlas.Nextjs

/-- An import of bindings from a module. -/
def importPattern : String :=
  r#"import\s+(?:(?P<default>\w+)\s*,?\s*)?(?:\x7b(?P<named>[^\x7d]*)\x7d)?\s*"# ++
    r#"from\s+['"](?P<source>[^'"]+)['"]"#

/-- A call of an address. -/
def apiCallPattern : String :=
  r#"\b(?:fetch|axios\.(?:get|post|put|patch|delete))\s*\(\s*['"`](?P<url>[^'"`]+)['"`]"#

/-- Whether a name starts with an uppercase ASCII letter, as components do. -/
def isComponentName (name : String) : Bool := name.toList.head?.any Char.isUpper

/-- Whether a module is one of the project. -/
def isLocalSource (source : String) : Bool :=
  [".", "@/", "~/"].any (Text.startsWith · source)

/-- The list with a text that it does not hold yet. -/
def addNew (list : List String) (s : String) : List String :=
  if s ∈ list then list else list ++ [s]

/-- The binding of an item in an import list. -/
def bindingOf? (item : String) : Option String :=
  let item := Text.trim item
  let binding := match Text.cut? " as " item with
    | some (_, localName) => Text.trim localName
    | none => item
  if binding = "" then none else some binding

/-- The list with the components that an import takes from a module of the project. -/
def addImports (list : List String) (m : Pattern.Match) : List String :=
  if !isLocalSource (m.group "source") then list
  else
    let names := (m.group? "default").toList ++
      (Text.splitOn ',' (m.group "named")).filterMap bindingOf?
    (names.filter isComponentName).foldl addNew list

/-- A character of a property name. -/
def isPropNameChar (c : Char) : Bool := Chars.isAlphanumeric c || c == '_'

/-- The property of a line, if it declares one. -/
def propOf? (line : String) : Option ComponentProp := do
  let line := String.ofList (Chars.trimEndWhile (· == ',') (Text.trim line).toList)
  let (name, type) ← Text.cut? ":" line
  let name := Text.trim name
  let (name, required) := match Text.dropSuffix? "?" name with
    | some n => (Text.trim n, false)
    | none => (name, true)
  if name = "" ∨ !name.toList.all isPropNameChar then none
  else return ⟨name, Text.trim type, required⟩

/-- The properties that a block declares, cut at semicolons and line feeds. -/
def parseProps (block : String) : List ComponentProp :=
  (Chars.splitBy (fun c => c == ';' || c == '\n') block.toList).filterMap fun line =>
    propOf? (String.ofList line)

/-- Hooks whose last argument is a list of dependencies. -/
def dependencyHooks : List String := ["useEffect", "useLayoutEffect", "useMemo", "useCallback"]

/-- The rules for components. -/
def componentRules : RuleSet Component :=
  [.first "client_directive" r#"(?m)^\s*['"]use client['"]"#
      fun _ r => { r with client := true },
    .first "server_directive" r#"(?m)^\s*['"]use server['"]"#
      fun _ r => { r with server := true },
    .first "class_component" r"class\s+\w+\s+extends\s+(?:React\.)?(?:Pure)?Component\b"
      fun _ r => { r with kind := .classBased },
    .first "props" r"(?:interface|type)\s+\w*Props\s*=?\s*\x7b(?P<body>[^\x7d]*)\x7d"
      fun m r => { r with props := parseProps (m.group "body") },
    .each "hook" r"\b(?P<hook>use[A-Z]\w*)\s*\("
      fun m r =>
        if m.group "hook" ∈ dependencyHooks then r
        else { r with hooks := r.hooks ++ [{ name := m.group "hook" }] },
    .each "dependency_hook"
      (r"(?s)\b(?P<hook>useEffect|useLayoutEffect|useMemo|useCallback)\s*" ++
        r"\(.*?,\s*\[(?P<deps>[^\]]*)\]\s*\)")
      fun m r =>
        let dependencies := ((Text.splitOn ',' (m.group "deps")).map Text.trim).filter (· ≠ "")
        { r with hooks := r.hooks ++ [⟨m.group "hook", dependencies⟩] },
    .each "import" importPattern
      fun m r => { r with imports := addImports r.imports m }]

/-- The rules for pages. -/
def pageRules : RuleSet Page :=
  [.each "import" importPattern
      fun m r => { r with components := addImports r.components m },
    .each "api_call" apiCallPattern
      fun m r => { r with apis := addNew r.apis (m.group "url") }]

/-- The rules for layouts. -/
def layoutRules : RuleSet Layout :=
  [.first "name" r"export\s+default\s+(?:async\s+)?function\s+(?P<name>\w+)"
      fun m r => { r with name := m.group "name" },
    .each "import" importPattern
      fun m r => { r with components := addImports r.components m }]

/-- The rules for state modules with slices. -/
def reduxRules : RuleSet StateModule :=
  [.each "slice" r#"createSlice\s*\(\s*\x7b\s*name\s*:\s*['"](?P<slice>[\w/-]+)['"]"#
      fun m r => { r with slices := r.slices ++ [m.group "slice"] },
    .each "reducer" r"(?m)^\s*(?P<name>\w+)\s*(?::\s*(?:\([^)]*\)|\w+)\s*=>|\(\s*state\b)"
      fun m r =>
        if m.group "name" ∈ ["reducers", "extraReducers"] then r
        else { r with actions := r.actions ++ [⟨m.group "name", "reducer"⟩] }]

/-- The rules for state modules with setters. -/
def zustandRules : RuleSet StateModule :=
  [.each "setter"
      r"(?P<name>\w+)\s*:\s*(?:async\s+)?\([^)]*\)\s*=>\s*(?:\x7b\s*)?set\s*\("
      fun m r => { r with actions := r.actions ++ [⟨m.group "name", "setter"⟩] }]

/-- The rules for state modules with atoms. -/
def jotaiRules : RuleSet StateModule :=
  [.each "atom"
      r"(?:const|let)\s+(?P<name>\w+)\s*=\s*atom\s*(?:<[^>]*>)?\s*\((?P<default>[^)]*)\)"
      fun m r =>
        let default := Text.trim (m.group "default")
        { r with
          atoms := r.atoms ++ [⟨m.group "name", if default = "" then none else some default⟩] }]

/-- The rules for API routes. -/
def apiRules : RuleSet Api :=
  [.each "exported_method"
      (r"export\s+(?:async\s+function|function|const)\s+" ++
        r"(?P<method>GET|POST|PUT|PATCH|DELETE|HEAD|OPTIONS)\b")
      fun m r => { r with methods := addNew r.methods (m.group "method") },
    .each "method_check" r#"req\.method\s*===?\s*['"](?P<method>\w+)['"]"#
      fun m r => { r with methods := addNew r.methods (Text.toUpper (m.group "method")) },
    .first "handler" r"export\s+default\s+(?:async\s+)?function\s+(?P<name>\w+)"
      fun m r => { r with handler := some (m.group "name") },
    .each "middleware" r"\.use\(\s*(?P<name>[\w.]+)"
      fun m r => { r with middleware := r.middleware ++ [m.group "name"] }]

end Atlas.Nextjs
