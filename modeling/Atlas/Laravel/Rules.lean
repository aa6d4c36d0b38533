import Atlas.Laravel.Project
import Atlas.Laravel.Php
import Atlas.Pattern.Rule

/-!
# Laravel rules

The pattern rules that read models, controllers, routes, migrations and service providers out of
PHP sources.
-/

namespace Atlas.Laravel

open Php

/-! ## Models -/

/-- The casts of an array of fields. -/
def castsOf (block : String) : List Cast :=
  (arguments block).filterMap fun item =>
    match Text.cut? "=>" item with
    | none => none
    | some (field, cast) =>
      let field := trimItem field
      let cast := trimItem cast
      if field = "" ∨ cast = "" then none
      else
        match Text.dropSuffix? "::class" cast with
        | some name => some ⟨field, baseName name⟩
        | none => some ⟨field, cast⟩

/-- The relationship that a method returns, from the arguments of its call. In a relationship over
a pivot table that table comes before the keys. -/
def relationshipOf? (kind method args : String) : Option Relationship := do
  let type ← RelationshipType.ofMethod? kind
  let args := arguments args
  let related ← args.head?
  let argument (i : Nat) : Option String := (args[i]?.map trimItem).filter (· ≠ "")
  let base : Relationship := { type, method, relatedModel := className related }
  if type = .belongsToMany then
    return { base with
      pivotTable := argument 1, foreignKey := argument 2, localKey := argument 3 }
  else return { base with foreignKey := argument 1, localKey := argument 2 }

/-- The rules for models. -/
def modelRules : RuleSet Model :=
  [.first "table" r#"protected\s+\$table\s*=\s*['"](?P<table>[^'"]+)['"]"#
      fun m r => { r with table := some (m.group "table") },
    .first "fillable" r"(?s)protected\s+\$fillable\s*=\s*\[(?P<items>.*?)\]"
      fun m r => { r with fillable := items (m.group "items") },
    .first "hidden" r"(?s)protected\s+\$hidden\s*=\s*\[(?P<items>.*?)\]"
      fun m r => { r with hidden := items (m.group "items") },
    .first "casts" r"(?s)protected\s+\$casts\s*=\s*\[(?P<items>.*?)\]"
      fun m r => { r with casts := r.casts ++ castsOf (m.group "items") },
    .each "relationship"
      (r"public\s+function\s+(?P<method>\w+)\s*\(\s*\)\s*(?::\s*[\w\\]+\s*)?\x7b\s*return\s+" ++
        r"\$this\s*->\s*(?P<kind>belongsToMany|hasMany|hasOne|belongsTo)\s*" ++
        r"\((?P<args>[^)]*)\)")
      fun m r =>
        let found := relationshipOf? (m.group "kind") (m.group "method") (m.group "args")
        { r with relationships := r.relationships ++ found.toList }]

/-! ## Controllers -/

/-- The rules for controllers. Methods whose names start with two underscores are left out. -/
def controllerRules : RuleSet Controller :=
  [.each "method"
      (r"public\s+function\s+(?P<name>\w+)\s*\((?P<params>[^)]*)\)" ++
        r"(?:\s*:\s*(?P<returns>\??[\w\\|]+))?")
      fun m r =>
        if Text.startsWith "__" (m.group "name") then r
        else
          { r with
            methods := r.methods ++
              [⟨m.group "name", arguments (m.group "params"), m.group? "returns"⟩] },
    .each "middleware" r#"\$this\s*->\s*middleware\(\s*['"](?P<middleware>[^'"]+)['"]"#
      fun m r => { r with middleware := r.middleware ++ [m.group "middleware"] },
    .each "model_import" r"use\s+\\?App\\Models\\(?P<model>\w+)\s*;"
      fun m r => { r with models := r.models ++ [m.group "model"] }]

/-! ## Routes -/

/-- The first of several groups that took part in a match. -/
def firstGroup? (m : Pattern.Match) (names : List String) : Option String :=
  names.findSome? m.group?

/-- The route with a call of the chain after its declaration. -/
def Route.withCall (r : Route) (call : Call) : Route :=
  if call.name = "name" then { r with name := some (trimItem call.arguments) }
  else if call.name = "middleware" then
    let block := Text.trimWhile (fun c => c == '[' || c == ']') call.arguments
    { r with middleware := r.middleware ++ items block }
  else r

/-- The route that a declaration gives. A controller without an action is called itself. -/
def routeOf (m : Pattern.Match) : Route :=
  let controller := firstGroup? m ["array_controller", "string_controller", "invokable"]
  let action := (firstGroup? m ["array_action", "string_action"]).orElse fun _ =>
    (m.group? "invokable").map fun _ => "__invoke"
  let route : Route :=
    { method := Text.toUpper (m.group "verb"), uri := m.group "uri",
      controller := controller.map className, action }
  (chainCalls (m.group "chain")).foldl Route.withCall route

/-- The rules for route files. -/
def routeRules : RuleSet (List Route) :=
  [.each "route"
      (r#"Route::(?P<verb>get|post|put|patch|delete)\s*\(\s*['"](?P<uri>[^'"]+)['"]\s*,\s*"# ++
        r#"(?:\[\s*\\?(?P<array_controller>[\w\\]+)::class\s*,\s*"# ++
        r#"['"](?P<array_action>\w+)['"]\s*\]"# ++
        r#"|['"](?P<string_controller>[\w\\]+)@(?P<string_action>\w+)['"]"# ++
        r#"|\\?(?P<invokable>[\w\\]+)::class)\s*\)"# ++
        r#"(?P<chain>(?:\s*->\s*\w+\([^)]*\))*)"#)
      fun m rs => rs ++ [routeOf m]]

/-! ## Migrations -/

/-- The table that a key column refers to by the naming convention. -/
def conventionalTable (column : String) : String :=
  let base := (Text.dropSuffix? "_id" column).getD column
  if Text.endsWith "s" base then base
  else
    match Text.dropSuffix? "y" base with
    | some stem => stem ++ "ies"
    | none => base ++ "s"

/-- The reference of a column after one call of its chain. Actions count only once there is a
reference. -/
def referenceStep (column : String) (ref : Option ForeignReference) (call : Call) :
    Option ForeignReference :=
  let argument := trimItem ((Text.splitOn ',' call.arguments).headD "")
  let started := ref.getD {}
  match call.name with
  | "constrained" =>
    some { started with
      table := if argument = "" then conventionalTable column else argument
      column := if started.column = "" then "id" else started.column }
  | "references" => some { started with column := argument }
  | "on" => some { started with table := argument }
  | "onDelete" => ref.map ({ · with onDelete := some (Text.toLower argument) })
  | "onUpdate" => ref.map ({ · with onUpdate := some (Text.toLower argument) })
  | "cascadeOnDelete" => ref.map ({ · with onDelete := some "cascade" })
  | "nullOnDelete" => ref.map ({ · with onDelete := some "set null" })
  | "cascadeOnUpdate" => ref.map ({ · with onUpdate := some "cascade" })
  | _ => ref

/-- The reference that a chain of calls declares, if it names a table. -/
def referenceOfChain (column : String) (chain : List Call) : Option ForeignReference :=
  (chain.foldl (referenceStep column) none).filter (·.table ≠ "")

/-- The columns that a helper without a name declares. -/
def implicitColumns (helper : String) : List Column :=
  let timestamp (name : String) : Column :=
    { name, columnType := "timestamp", nullable := true }
  match helper with
  | "id" => [{ name := "id", columnType := "id", primary := true }]
  | "timestamps" => [timestamp "created_at", timestamp "updated_at"]
  | "nullableTimestamps" => [timestamp "created_at", timestamp "updated_at"]
  | "softDeletes" => [timestamp "deleted_at"]
  | "rememberToken" =>
    [{ name := "remember_token", columnType := "string", nullable := true }]
  | _ => []

/-- The column with a modifier of its declaration. -/
def Column.withModifier (c : Column) (call : Call) : Column :=
  let c := { c with modifiers := c.modifiers ++ [call.name ++ "(" ++ call.arguments ++ ")"] }
  match call.name with
  | "nullable" => { c with nullable := true }
  | "unique" => { c with unique := true }
  | "primary" => { c with primary := true }
  | "default" => { c with default := some (trimItem call.arguments) }
  | _ => c

/-- Gives the first column of a name a reference. -/
def setReference (name : String) (ref : Option ForeignReference) : List Column → List Column
  | [] => []
  | c :: cs =>
    if c.name = name then { c with references := ref } :: cs else c :: setReference name ref cs

/-- The migration with what one call on the table declares. -/
def Migration.withColumnCall (r : Migration) (helper : String) (name : Option String)
    (chain : List Call) : Migration :=
  match name with
  | none => { r with columns := r.columns ++ implicitColumns helper }
  | some name =>
    if helper ∈ ["index", "unique", "primary"] then
      { r with indexes := r.indexes ++ [⟨helper, [name]⟩] }
    else if helper = "foreign" then
      { r with columns := setReference name (referenceOfChain name chain) r.columns }
    else if helper ∈ ["dropColumn", "renameColumn", "dropForeign", "dropIndex", "dropUnique"] then
      r
    else
      let column := chain.foldl Column.withModifier { name, columnType := helper }
      { r with
        columns := r.columns ++ [{ column with references := referenceOfChain name chain }] }

/-- The rules for migrations. -/
def migrationRules : RuleSet Migration :=
  [.first "table" r#"Schema::(?:create|table)\(\s*['"](?P<table>[^'"]+)['"]"#
      fun m r => { r with table := m.group "table" },
    .each "composite_index"
      r"\$table->(?P<kind>index|unique|primary)\(\s*\[(?P<columns>[^\]]*)\]"
      fun m r => { r with indexes := r.indexes ++ [⟨m.group "kind", items (m.group "columns")⟩] },
    .each "column"
      (r#"\$table->(?P<helper>\w+)\(\s*(?:['"](?P<name>[^'"]*)['"])?\s*(?:,\s*(?P<args>[^)]*))?"# ++
        r#"\)(?P<chain>(?:\s*->\s*\w+\([^)]*\))*)\s*;"#)
      fun m r =>
        r.withColumnCall (m.group "helper") (m.group? "name") (chainCalls (m.group "chain"))]

/-! ## Providers -/

/-- The rules for service providers. -/
def providerRules : RuleSet Provider :=
  [.first "extends" r"class\s+\w+\s+extends\s+\\?(?P<parent>[\w\\]+)"
      fun m r => { r with parent := some (className (m.group "parent")) },
    .first "deferred"
      r"class\s+\w+[^\x7b]*\bimplements\b[^\x7b]*\bDeferrableProvider\b"
      fun _ r => { r with deferred := true }]

end Atlas.Laravel
