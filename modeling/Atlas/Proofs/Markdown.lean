import Atlas.Docker.Report
import Atlas.Laravel.Report
import Atlas.Nextjs.Report
import Atlas.Proofs.Text
import Atlas.Sql.Report
import Atlas.Swagger.Report
import Mathlib.Algebra.GroupWithZero.Nat

/-!
# Tables of the reports

A row of a table starts and ends with a bar and has a bar between any two cells, so a text that is
put into a cell adds a cell for each bar of its own that has no backslash before it
(`cellCount_row`). A row takes one line and has a cell for each of its texts just if no text has
such a bar or ends a line (`isRow_iff`).

The documentation of databases, of Laravel, Next.js and Docker projects and of APIs holds tables
whose cells are texts of what is documented, put there as they are. So a row of one of them has a
cell more than the header for each bare bar in its texts, and it fits the header just if every one
of its texts stays within its cell (`tables_held`). A default such as `'a' || 'b'` does not
(`default_adds_cells`).
-/

set_option linter.unusedSectionVars false

namespace Atlas.Markdown

/-! ## Bars -/

/-- How many bars of a line stand between cells: a bar behind a backslash is text, and so is a
backslash behind another one. -/
def bars : List Char → ℕ
  | [] => 0
  | '\\' :: '\\' :: r => bars r
  | '\\' :: '|' :: r => bars r
  | '|' :: r => bars r + 1
  | _ :: r => bars r

theorem bars_cons_of_ne {c : Char} (hbar : c ≠ '|') (hback : c ≠ '\\') (r : List Char) :
    bars (c :: r) = bars r := by
  rw [bars.eq_5]
  · exact fun _ hc => absurd hc hback
  · exact fun _ hc => absurd hc hback
  · exact hbar

/-- A character that is neither a bar nor a backslash ends what came before it. -/
theorem bars_append_cons {c : Char} (hbar : c ≠ '|') (hback : c ≠ '\\') (s t : List Char) :
    bars (s ++ c :: t) = bars s + bars t := by
  induction s using bars.induct with
  | case1 => rw [List.nil_append, bars_cons_of_ne hbar hback, bars, Nat.zero_add]
  | case2 r ih => exact ih
  | case3 r ih => exact ih
  | case4 r ih => rw [List.cons_append, bars, ih, bars, Nat.add_right_comm]
  | case5 d r hback' hbar' hd ih =>
    have hhead {e : Char} (he : c ≠ e) (hr : ∀ r', d = '\\' → r = e :: r' → False) :
        ∀ r', d = '\\' → r ++ c :: t = e :: r' → False := fun r' hd' h => by
      cases r with
      | nil => exact he (List.cons.inj h).1
      | cons e' r => exact hr r hd' (by rw [(List.cons.inj h).1])
    rw [List.cons_append, bars.eq_5 _ _ (hhead hback hback') (hhead hbar hbar') hd, ih,
      bars.eq_5 _ _ hback' hbar' hd]

/-! ## Rows -/

/-- How many cells a line has that starts and ends with a bar. -/
def cellCount (line : String) : ℕ :=
  bars line.toList - 1

/-- The row of some texts. -/
def row (texts : List String) : String :=
  "| " ++ " | ".intercalate texts ++ " |"

/-- A text that stays within its cell. -/
structure IsCell (text : String) : Prop where
  noBar : bars text.toList = 0
  oneLine : OneLine text

instance (text : String) : Decidable (IsCell text) :=
  decidable_of_iff (bars text.toList = 0 ∧ OneLine text) ⟨fun h => ⟨h.1, h.2⟩, fun h => ⟨h.1, h.2⟩⟩

theorem bars_intercalate {texts : List String} (h : texts ≠ []) :
    bars ((" | ".intercalate texts).toList ++ [' ', '|']) =
      texts.length + (texts.map fun s => bars s.toList).sum := by
  have hbar (s t : List Char) : bars (s ++ ' ' :: '|' :: t) = bars s + (bars t + 1) :=
    bars_append_cons (by decide) (by decide) s ('|' :: t)
  induction texts with
  | nil => exact absurd rfl h
  | cons s texts ih =>
    cases texts with
    | nil =>
      rw [String.intercalate_singleton, hbar, List.map_singleton, List.sum_singleton, bars,
        List.length_singleton, Nat.add_comm]
    | cons s' texts =>
      have hrest := ih (List.cons_ne_nil s' texts)
      rw [String.intercalate_cons_cons, String.toList_append, String.toList_append,
        List.append_assoc, List.append_assoc]
      have hsep : " | ".toList = [' ', '|', ' '] := rfl
      rw [hsep, List.cons_append, List.cons_append, List.cons_append, List.nil_append, hbar,
        bars_cons_of_ne (by decide) (by decide), hrest]
      simp only [List.length_cons, List.map_cons, List.sum_cons]
      omega

/-- A row has a cell for each text and one more for each bar within these. -/
theorem cellCount_row {texts : List String} (h : texts ≠ []) :
    cellCount (row texts) = texts.length + (texts.map fun s => bars s.toList).sum := by
  have hrow : (row texts).toList =
      '|' :: ' ' :: ((" | ".intercalate texts).toList ++ [' ', '|']) := by
    simp [row]
  rw [cellCount, hrow, bars, bars_cons_of_ne (by decide) (by decide), bars_intercalate h,
    Nat.add_sub_cancel]

theorem oneLine_row {texts : List String} : OneLine (row texts) ↔ ∀ s ∈ texts, OneLine s := by
  have hopen : OneLine "| " := by decide
  have hsep : OneLine " | " := by decide
  have hclose : OneLine " |" := by decide
  have hintercalate : OneLine (" | ".intercalate texts) ↔ ∀ s ∈ texts, OneLine s := by
    induction texts with
    | nil => simp [show OneLine "" by decide]
    | cons s texts ih =>
      cases texts with
      | nil => simp
      | cons s' texts =>
        rw [String.intercalate_cons_cons, oneLine_append, oneLine_append, ih, and_iff_left hsep]
        exact List.forall_mem_cons.symm
  rw [row, oneLine_append, oneLine_append, hintercalate]
  exact (and_iff_left hclose).trans (and_iff_right hopen)

/-- A row takes one line and has a cell for each of its texts just if each of them stays within its
cell. -/
theorem isRow_iff {texts : List String} (h : texts ≠ []) :
    OneLine (row texts) ∧ cellCount (row texts) = texts.length ↔ ∀ s ∈ texts, IsCell s := by
  have hbars : texts.length + (texts.map fun s => bars s.toList).sum = texts.length ↔
      ∀ s ∈ texts, bars s.toList = 0 := by
    rw [Nat.add_eq_left, List.sum_eq_zero_iff_forall_eq_nat]
    simp
  rw [oneLine_row, cellCount_row h, hbars]
  exact ⟨fun ⟨hl, hb⟩ s hs => ⟨hb s hs, hl s hs⟩,
    fun hs => ⟨fun s hmem => (hs s hmem).oneLine, fun s hmem => (hs s hmem).noBar⟩⟩

example : cellCount "| a \\| b | c |" = 2 := by decide

/-! ## Tables -/

/-- A table: the texts of its header, the line below that, and the texts of its rows. -/
structure Table where
  header : List String
  rule : String
  rows : List (List String)

/-- The lines of a table. The empty line at its end is what ends it. -/
def Table.lines (t : Table) : List String :=
  [row t.header, t.rule] ++ t.rows.map row ++ [""]

/-- A table with as many columns as its header and the line below that have cells. -/
structure Table.Regular (t : Table) : Prop where
  nonempty : t.header ≠ []
  header : cellCount (row t.header) = t.header.length
  rule : cellCount t.rule = t.header.length
  rows : ∀ texts ∈ t.rows, texts.length = t.header.length

/-- A row fits the header of its table: it takes one line and has as many cells. -/
structure Table.Fits (t : Table) (texts : List String) : Prop where
  oneLine : OneLine (row texts)
  cells : cellCount (row texts) = cellCount (row t.header)

theorem Table.Regular.of_cells {header : List String} {rule : String} {rows : List (List String)}
    (hne : header ≠ []) (hheader : ∀ s ∈ header, IsCell s) (hrule : cellCount rule = header.length)
    (hrows : ∀ texts ∈ rows, texts.length = header.length) : Table.Regular ⟨header, rule, rows⟩ :=
  ⟨hne, ((isRow_iff hne).2 hheader).2, hrule, hrows⟩

/-- The lines hold some tables, one after another. -/
inductive Holds : List Table → List String → Prop
  | nil (ls : List String) : Holds [] ls
  | cons {t : Table} {ts : List Table} {ls : List String} (before : List String)
      (rest : Holds ts ls) : Holds (t :: ts) (before ++ t.lines ++ ls)

namespace Holds

variable {ts us : List Table} {ls ms : List String}

theorem one (t : Table) : Holds [t] t.lines := by
  simpa using Holds.cons (t := t) [] (.nil [])

/-- Things that are listed in a table, each on a line with its cells. -/
theorem listed {α : Type} {line : α → String} {cells : α → List String}
    (hline : ∀ a, line a = row (cells a)) (header : List String) (rule : String) (as : List α) :
    Holds [⟨header, rule, as.map cells⟩] ([row header, rule] ++ as.map line ++ [""]) := by
  have h := Holds.one ⟨header, rule, as.map cells⟩
  rw [Table.lines, List.map_map] at h
  rwa [List.map_congr_left fun a _ => hline a]

theorem behind (before : List String) (h : Holds ts ls) : Holds ts (before ++ ls) := by
  cases h with
  | nil ls => exact .nil _
  | cons before' rest =>
    rw [← List.append_assoc, ← List.append_assoc]
    exact .cons _ rest

theorem append (h : Holds ts ls) (h' : Holds us ms) : Holds (ts ++ us) (ls ++ ms) := by
  induction h with
  | nil ls => exact h'.behind ls
  | cons before rest ih =>
    rw [List.append_assoc]
    exact .cons before ih

theorem before (h : Holds ts ls) (after : List String) : Holds ts (ls ++ after) := by
  simpa using h.append (.nil after)

theorem flatMap {α : Type} {f : α → List Table} {g : α → List String} {as : List α}
    (h : ∀ a ∈ as, Holds (f a) (g a)) : Holds (as.flatMap f) (as.flatMap g) := by
  induction as with
  | nil => exact .nil []
  | cons a as ih =>
    obtain ⟨ha, has⟩ := List.forall_mem_cons.1 h
    exact ha.append (ih has)

end Holds

end Atlas.Markdown

namespace Atlas

open Markdown (Holds IsCell bars cellCount row)

/-! ## Databases -/

namespace Sql

/-- The cells of a column. -/
def Column.cells (c : Column) : List String :=
  [c.name, c.type, if c.nullable then "yes" else "no", if c.primaryKey then "PK" else "",
    c.default.getD ""]

/-- The table of the columns of a table. -/
def Table.columnTable (t : Table) : Markdown.Table where
  header := ["Column", "Type", "Nullable", "Key", "Default"]
  rule := "|--------|------|----------|-----|---------|"
  rows := t.columns.map (·.cells)

theorem Table.regular (t : Table) : t.columnTable.Regular :=
  .of_cells (by decide) (by decide) (by decide) (List.forall_mem_map.2 fun _ _ => rfl)

theorem Column.row_eq (c : Column) : c.row = Markdown.row c.cells := by
  simp only [Column.row, Markdown.row, Column.cells, String.intercalate_cons_cons,
    String.intercalate_singleton, String.append_assoc]

theorem Table.holds_documentation (t : Table) : Holds [t.columnTable] t.documentation := by
  have h := ((Holds.listed Column.row_eq t.columnTable.header t.columnTable.rule t.columns).behind
    (["### " ++ t.name, ""] ++ (t.comment.map fun c => [c, ""]).getD [])).before
      (if t.foreignKeys.isEmpty then []
        else ["Foreign keys:"] ++ t.foreignKeys.map (·.line) ++ [""])
  have hheader : row t.columnTable.header = "| Column | Type | Nullable | Key | Default |" := rfl
  rw [hheader] at h
  simpa [documentation, columnTable] using h

theorem Schema.holds_documentation (s : Schema) :
    Holds (s.tables.map (·.columnTable)) s.documentation := by
  have h := Holds.flatMap fun t (_ : t ∈ s.tables) => t.holds_documentation
  rw [← List.map_eq_flatMap] at h
  have hrest := (h.behind ["## Schema `" ++ s.name ++ "`", ""]).before
    ((s.views ++ s.materializedViews).flatMap (·.documentation) ++
      if s.functions.isEmpty then []
      else ["### Functions", ""] ++ s.functions.map (·.line) ++ [""])
  rw [← List.append_assoc] at hrest
  exact hrest

theorem Database.holds_markdown (db : Database) : ∃ ls rest,
    db.markdown = Text.unlines ls ++ rest ∧ Holds (db.tables.map (·.columnTable)) ls := by
  have h := Holds.flatMap fun s (_ : s ∈ db.schemas) => s.holds_documentation
  rw [← List.map_flatMap] at h
  exact ⟨_, db.plantUml ++ "```\n", String.append_assoc ..,
    (h.behind ["# Database: " ++ db.name, ""]).before ["## Diagram", "", "```plantuml"]⟩

end Sql

/-! ## Laravel projects -/

namespace Laravel

/-- The cells of a route. -/
def Route.cells (r : Route) : List String :=
  [r.method, r.uri, match r.controller, r.action with
    | some c, some a => c ++ "@" ++ a
    | _, _ => "", r.name.getD ""]

/-- The tables of the routes : none without routes. -/
def Project.routeTables (p : Project) : List Markdown.Table :=
  if p.routes.isEmpty then []
  else [⟨["Method", "URI", "Action", "Name"], "|--------|-----|--------|------|",
    p.routes.map (·.cells)⟩]

theorem Project.regular_routeTables (p : Project) : ∀ t ∈ p.routeTables, t.Regular := by
  rw [routeTables]
  split_ifs
  · exact fun t ht => absurd ht List.not_mem_nil
  · exact List.forall_mem_singleton.2
      (.of_cells (by decide) (by decide) (by decide) (List.forall_mem_map.2 fun _ _ => rfl))

theorem Route.row_eq (r : Route) : r.row = Markdown.row r.cells := by
  cases hcontroller : r.controller <;> cases haction : r.action <;>
    simp only [Route.row, Markdown.row, Route.cells, hcontroller, haction,
      String.intercalate_cons_cons, String.intercalate_singleton, String.append_assoc]

theorem Project.holds_markdown (p : Project) : ∃ ls rest,
    p.markdown = Text.unlines ls ++ rest ∧ Holds p.routeTables ls := by
  have hroutes : Holds p.routeTables (listed ["## Routes", "", "| Method | URI | Action | Name |",
      "|--------|-----|--------|------|"] p.routes Route.row) := by
    rw [routeTables, listed]
    split_ifs
    · exact .nil []
    · exact (Holds.listed Route.row_eq ["Method", "URI", "Action", "Name"]
        "|--------|-----|--------|------|" p.routes).behind ["## Routes", ""]
  exact ⟨_, p.plantUml ++ "```\n", String.append_assoc ..,
    ((hroutes.behind _).before _).before ["## Diagram", "", "```plantuml"]⟩

end Laravel

/-! ## Next.js projects -/

namespace Nextjs

/-- The cells of a page. -/
def Page.cells (p : Page) : List String :=
  [p.route, p.path, ", ".intercalate p.components]

/-- The tables of the pages : none without pages. -/
def Project.pageTables (p : Project) : List Markdown.Table :=
  if p.pages.isEmpty then []
  else [⟨["Route", "File", "Components"], "|-------|------|------------|",
    p.pages.map (·.cells)⟩]

theorem Project.regular_pageTables (p : Project) : ∀ t ∈ p.pageTables, t.Regular := by
  rw [pageTables]
  split_ifs
  · exact fun t ht => absurd ht List.not_mem_nil
  · exact List.forall_mem_singleton.2
      (.of_cells (by decide) (by decide) (by decide) (List.forall_mem_map.2 fun _ _ => rfl))

theorem Page.row_eq (p : Page) : p.row = Markdown.row p.cells := by
  simp only [Page.row, Markdown.row, Page.cells, String.intercalate_cons_cons,
    String.intercalate_singleton, String.append_assoc]

theorem Project.holds_markdown (p : Project) : ∃ ls rest,
    p.markdown = Text.unlines ls ++ rest ∧ Holds p.pageTables ls := by
  have hpages : Holds p.pageTables (listed ["## Pages", "", "| Route | File | Components |",
      "|-------|------|------------|"] p.pages Page.row) := by
    rw [pageTables, listed]
    split_ifs
    · exact .nil []
    · exact (Holds.listed Page.row_eq ["Route", "File", "Components"]
        "|-------|------|------------|" p.pages).behind ["## Pages", ""]
  refine ⟨_, p.plantUml ++ "```\n", String.append_assoc .., Holds.before ?_ _⟩
  rw [summaryLines, List.append_assoc, List.append_assoc]
  exact (hpages.behind _).before _

end Nextjs

/-! ## Docker projects -/

namespace Docker

/-- The cells of a service. -/
def Service.cells (s : Service) : List String :=
  [s.name, match s.image, s.build with
    | some image, _ => image
    | none, some b => "build: " ++ b.context
    | none, none => "", ", ".intercalate (s.ports.map (·.label)), ", ".intercalate s.dependsOn]

/-- The table of the services of a compose file. -/
def Compose.serviceTable (c : Compose) : Markdown.Table where
  header := ["Service", "Image", "Ports", "Depends on"]
  rule := "|---------|-------|-------|------------|"
  rows := c.services.map (·.cells)

theorem Compose.regular (c : Compose) : c.serviceTable.Regular :=
  .of_cells (by decide) (by decide) (by decide) (List.forall_mem_map.2 fun _ _ => rfl)

theorem Service.row_eq (s : Service) : s.row = Markdown.row s.cells := by
  cases himage : s.image <;> cases hbuild : s.build <;>
    simp only [Service.row, Markdown.row, Service.cells, himage, hbuild,
      String.intercalate_cons_cons, String.intercalate_singleton, String.append_assoc]

theorem Compose.holds_summary (c : Compose) : Holds [c.serviceTable] c.summary :=
  (Holds.listed Service.row_eq c.serviceTable.header c.serviceTable.rule c.services).behind
    ["## Compose Services", ""]

theorem Project.holds_markdown (p : Project) : ∃ ls rest,
    p.markdown = Text.unlines ls ++ rest ∧
      Holds (p.compose.toList.map (·.serviceTable)) ls := by
  have h := Holds.flatMap fun c (_ : c ∈ p.compose.toList) => c.holds_summary
  rw [← List.map_eq_flatMap] at h
  exact ⟨_, p.plantUml ++ "```\n", String.append_assoc ..,
    (h.behind _).before ["## Diagram", "", "```plantuml"]⟩

end Docker

/-! ## APIs -/

namespace Swagger

/-- The cells of an endpoint. -/
def Endpoint.cells (e : Endpoint) : List String :=
  [e.verb.upper, "`" ++ e.path ++ "`", e.name, e.operation.summary.getD ""]

/-- The table of some endpoints. -/
def endpointTable (endpoints : List Endpoint) : Markdown.Table where
  header := ["Method", "Path", "Name", "Summary"]
  rule := "|--------|------|------|---------|"
  rows := endpoints.map (·.cells)

theorem regular_endpointTable (endpoints : List Endpoint) : (endpointTable endpoints).Regular :=
  .of_cells (by decide) (by decide) (by decide) (List.forall_mem_map.2 fun _ _ => rfl)

theorem Endpoint.row_eq (e : Endpoint) : e.row = Markdown.row e.cells := by
  rw [← String.toList_inj]
  simp [Endpoint.row, Markdown.row, Endpoint.cells]

theorem holds_groupLines (tag : String) (endpoints : List Endpoint) :
    Holds [endpointTable endpoints] (groupLines tag endpoints) :=
  (Holds.listed Endpoint.row_eq (endpointTable endpoints).header (endpointTable endpoints).rule
    endpoints).behind ["## " ++ tag, ""]

theorem Spec.holds_markdown (s : Spec) : ∃ ls rest,
    s.markdown = Text.unlines ls ++ rest ∧
      Holds (s.groups.map fun g => endpointTable g.2) ls := by
  have h := Holds.flatMap fun g (_ : g ∈ s.groups) => holds_groupLines g.1 g.2
  rw [← List.map_eq_flatMap] at h
  exact ⟨_, "", (String.append_empty).symm, h.behind _⟩

end Swagger

/-! ## Rows of all tables -/

namespace Markdown

/-- A text that holds some tables as its lines. Their rows have a cell more than the header for each
bare bar in their texts, and fit the header just if every text stays within its cell. -/
structure HoldsTables (ts : List Table) (text : String) : Prop where
  held : ∃ ls rest, text = Text.unlines ls ++ rest ∧ Holds ts ls
  ruled : ∀ t ∈ ts, cellCount t.rule = cellCount (row t.header)
  counted : ∀ t ∈ ts, ∀ texts ∈ t.rows, cellCount (row texts) =
    cellCount (row t.header) + (texts.map fun s => bars s.toList).sum
  fits_iff : ∀ t ∈ ts, ∀ texts ∈ t.rows, t.Fits texts ↔ ∀ s ∈ texts, IsCell s

theorem holdsTables {ts : List Table} {text : String}
    (held : ∃ ls rest, text = Text.unlines ls ++ rest ∧ Holds ts ls)
    (h : ∀ t ∈ ts, t.Regular) : HoldsTables ts text := by
  have hne : ∀ t ∈ ts, ∀ texts ∈ t.rows, texts ≠ [] := fun t ht texts hmem hnil => by
    have hlength := (h t ht).rows texts hmem
    rw [hnil] at hlength
    exact (h t ht).nonempty (List.length_eq_zero_iff.1 hlength.symm)
  refine ⟨held, fun t ht => ?_, fun t ht texts hmem => ?_, fun t ht texts hmem => ?_⟩
  · exact (h t ht).rule.trans (h t ht).header.symm
  · rw [cellCount_row (hne t ht texts hmem), (h t ht).rows texts hmem, (h t ht).header]
  · rw [← isRow_iff (hne t ht texts hmem), (h t ht).rows texts hmem, ← (h t ht).header]
    exact ⟨fun hf => ⟨hf.oneLine, hf.cells⟩, fun hf => ⟨hf.1, hf.2⟩⟩

end Markdown

/-- The documents hold the tables of what they document, whose rows fit just if their texts stay
within their cells. -/
theorem tables_held (db : Sql.Database) (laravel : Laravel.Project) (nextjs : Nextjs.Project)
    (docker : Docker.Project) (api : Swagger.Spec) :
    Markdown.HoldsTables (db.tables.map (·.columnTable)) db.markdown ∧
    Markdown.HoldsTables laravel.routeTables laravel.markdown ∧
    Markdown.HoldsTables nextjs.pageTables nextjs.markdown ∧
    Markdown.HoldsTables (docker.compose.toList.map (·.serviceTable)) docker.markdown ∧
    Markdown.HoldsTables (api.groups.map fun g => Swagger.endpointTable g.2) api.markdown := by
  refine ⟨?_, ?_, ?_, ?_, ?_⟩
  · exact Markdown.holdsTables db.holds_markdown (List.forall_mem_map.2 fun t _ => t.regular)
  · exact Markdown.holdsTables laravel.holds_markdown laravel.regular_routeTables
  · exact Markdown.holdsTables nextjs.holds_markdown nextjs.regular_pageTables
  · exact Markdown.holdsTables docker.holds_markdown (List.forall_mem_map.2 fun c _ => c.regular)
  · exact Markdown.holdsTables api.holds_markdown
      (List.forall_mem_map.2 fun g _ => Swagger.regular_endpointTable g.2)

namespace Sql

/-- The code of a country, with a default that is put together. -/
def sampleColumn : Column :=
  { name := "code", type := "text", nullable := false, primaryKey := false
    default := some "'a' || 'b'" }

/-- A default that puts two texts together adds two cells to the row of its column. -/
theorem default_adds_cells :
    let t : Table := { schema := "public", name := "countries", columns := [sampleColumn] }
    sampleColumn.row = "| code | text | no |  | 'a' || 'b' |" ∧ cellCount sampleColumn.row = 7 ∧
      cellCount (row t.columnTable.header) = 5 ∧ ¬t.columnTable.Fits sampleColumn.cells := by
  refine ⟨by decide +kernel, by decide +kernel, by decide +kernel, fun h => ?_⟩
  have hcells := h.cells
  revert hcells
  decide +kernel

end Sql

end Atlas
