import Atlas.Proofs.Diagram.Nodes
import Atlas.Proofs.Identifiers
import Atlas.Sql.Report

/-!
# Directives in the diagram of a database

The diagram of a database has a node for each table and each view, with a note where there is a
comment or a definition (`forall₂_draws`). These notes and the name of the database are the texts
that reach the diagram line by line (`Database.looseLines`). A directive among their lines is one of
the diagram, and there is none but these and the ones that end the notes and the diagram
(`directives_of_plantUml`).
-/

set_option linter.unusedSectionVars false

namespace Atlas

namespace Sql

open PlantUml Identifiers

/-! ## Drawing one thing after another -/

section DrawEach

variable {α β : Type} {draw : Identifiers → α → β × Identifiers}
  {R : Identifiers → α → β → Prop}

/-- What holds of each thing and what is drawn for it, and goes on to hold with further identifiers,
holds of all of them in the end. -/
theorem drawEach_spec (hmono : ∀ {ids ids' a b}, Continues ids ids' → R ids a b → R ids' a b)
    (h : ∀ ids a, Reached ids →
      R (draw ids a).2 a (draw ids a).1 ∧ Continues ids (draw ids a).2)
    {ids : Identifiers} (hids : Reached ids) (as : List α) :
    List.Forall₂ (R (drawEach draw ids as).2) as (drawEach draw ids as).1 ∧
      Continues ids (drawEach draw ids as).2 := by
  induction as generalizing ids with
  | nil => exact ⟨.nil, .refl hids⟩
  | cons a as ih =>
    obtain ⟨ha, hnext⟩ := h ids a hids
    obtain ⟨has, hlast⟩ := ih hnext.reached
    exact ⟨.cons (hmono hlast ha) has, hnext.trans hlast⟩

/-- What holds of whatever is drawn for a thing holds of all that is drawn. -/
theorem forall_mem_drawEach {P : β → Prop} (h : ∀ ids a, P (draw ids a).1) (ids : Identifiers)
    (as : List α) : ∀ b ∈ (drawEach draw ids as).1, P b := by
  induction as generalizing ids with
  | nil => exact List.forall_mem_nil _
  | cons a as ih => exact List.forall_mem_cons.2 ⟨h ids a, ih _⟩

theorem exists_of_mem_right {S : α → β → Prop} {as : List α} {bs : List β}
    (h : List.Forall₂ S as bs) {b : β} (hb : b ∈ bs) : ∃ a ∈ as, S a b := by
  induction h with
  | nil => cases hb
  | @cons a b' as bs hab _ ih =>
    rcases List.mem_cons.1 hb with rfl | hb
    · exact ⟨a, List.mem_cons_self, hab⟩
    · obtain ⟨a', ha', hr⟩ := ih hb
      exact ⟨a', List.mem_cons_of_mem _ ha', hr⟩

end DrawEach

/-! ## Nodes -/

/-- The lines of the note of a table. -/
def Table.noteText (t : Table) : List String :=
  (t.comment.map Text.lines).getD []

/-- The lines of the notes of a schema's tables and views, where nothing is noted none. -/
def Schema.noteTexts (s : Schema) : List (List String) :=
  s.tables.map Table.noteText ++ s.views.map View.query ++ s.materializedViews.map View.query

/-- The note below a node, if it has a line. -/
def noteOf (text : List String) : List Note :=
  if text.isEmpty then [] else [{ lines := text, detached := true }]

/-- A flat node with these lines in its note. -/
structure Draws (text : List String) (n : Node) : Prop where
  flat : Flat n
  notes : n.notes = noteOf text

/-- A node without nodes inside and without notes, whose identifier and stereotype are on one line.
-/
structure Bare (n : Node) : Prop where
  flat : Flat n
  notes : n.notes = []

theorem Bare.addSection {n : Node} (h : Bare n) (s : Section) : Bare (n.addSection s) := by
  rw [Node.addSection]
  split
  · exact h
  · exact ⟨⟨h.flat.id, h.flat.stereotype, h.flat.detached, h.flat.children⟩, h.notes⟩

theorem Bare.addNote {n : Node} (h : Bare n) (text : List String) :
    Draws text (n.addNote { lines := text, detached := true }) := by
  rw [Node.addNote]
  cases htext : text.isEmpty with
  | true =>
    rw [if_pos rfl]
    exact ⟨h.flat, by rw [h.notes, noteOf, htext, if_pos rfl]⟩
  | false =>
    rw [if_neg Bool.false_ne_true]
    have hnotes : n.notes ++ [{ lines := text, detached := true }] = noteOf text := by
      rw [h.notes, noteOf, htext, if_neg Bool.false_ne_true, List.nil_append]
    refine ⟨⟨h.flat.id, h.flat.stereotype, fun note hn => ?_, h.flat.children⟩, hnotes⟩
    rw [h.notes, List.nil_append, List.mem_singleton] at hn
    exact hn ▸ rfl

theorem draws_table (t : Table) {id : String} (hid : IsIdentifier id) :
    Draws t.noteText (t.node id) := by
  have hbare : Bare { shape := .entity, id, label := t.name } :=
    ⟨⟨oneLine_of_isIdentifier hid, nofun, nofun, rfl⟩, rfl⟩
  exact ((((hbare.addSection _).addSection _).addSection _).addSection _).addNote _

theorem draws_view (v : View) {stereotype id : String} (hs : OneLine stereotype)
    (hid : IsIdentifier id) : Draws v.query (v.node stereotype id) := by
  have hbare : Bare { shape := .classBox, id, label := v.name, stereotype := some stereotype } :=
    ⟨⟨oneLine_of_isIdentifier hid, fun s h => Option.some.inj h ▸ hs, nofun, rfl⟩, rfl⟩
  exact ((hbare.addSection _).addSection _).addNote _

/-! ## Schemas -/

/-- The container of a schema has a node for each table and each view. -/
structure DrawsSchema (s : Schema) (c : Container) : Prop where
  containers : c.containers = []
  nodes : List.Forall₂ Draws s.noteTexts c.nodes

theorem draws_schema (ids : Identifiers) (s : Schema) (hids : Reached ids) :
    DrawsSchema s (drawSchema ids s).1 ∧ Continues ids (drawSchema ids s).2 := by
  have htable : ∀ ids t, Reached ids →
      Draws t.noteText (drawTable ids t).1 ∧ Continues ids (drawTable ids t).2 := fun ids t h =>
    (h.idFor _ _).imp_left (draws_table t)
  have hview : ∀ stereotype, OneLine stereotype → ∀ ids v, Reached ids →
      Draws v.query (drawView s.name stereotype ids v).1 ∧
        Continues ids (drawView s.name stereotype ids v).2 := fun _ hs ids v h =>
    (h.idFor _ _).imp_left (draws_view v hs)
  obtain ⟨htables, h⟩ := drawEach_spec (R := fun _ (t : Table) n => Draws t.noteText n)
    (fun _ h => h) htable hids s.tables
  obtain ⟨hviews, h'⟩ := drawEach_spec (R := fun _ (v : View) n => Draws v.query n)
    (fun _ h => h) (hview "view" (by decide)) h.reached s.views
  obtain ⟨hmaterialized, h''⟩ := drawEach_spec (R := fun _ (v : View) n => Draws v.query n)
    (fun _ h => h) (hview "materialized" (by decide)) h'.reached s.materializedViews
  refine ⟨⟨rfl, ?_⟩, (h.trans h').trans h''⟩
  exact List.rel_append (List.rel_append (List.forall₂_map_left_iff.2 htables)
    (List.forall₂_map_left_iff.2 hviews)) (List.forall₂_map_left_iff.2 hmaterialized)

/-! ## Edges -/

theorem plain_key (source : String) (hsource : IsIdentifier source) (ids : Identifiers)
    (k : ForeignKey) (hids : Reached ids) :
    Plain (drawKey source ids k).1 ∧ Continues ids (drawKey source ids k).2 := by
  refine (hids.idFor _ _).imp_left fun htarget => ?_
  exact ⟨oneLine_of_isIdentifier hsource, oneLine_of_isIdentifier htarget,
    (by decide : OneLine "--"), (by decide : '-' ∈ "--".toList),
    fun m hm => Option.some.inj hm ▸ by decide, fun m hm => Option.some.inj hm ▸ by decide, rfl⟩

theorem plain_parent (schema source : String) (hsource : IsIdentifier source) (ids : Identifiers)
    (parent : String) (hids : Reached ids) :
    Plain (drawParent schema source ids parent).1 ∧
      Continues ids (drawParent schema source ids parent).2 := by
  refine (hids.idFor _ _).imp_left fun htarget => ?_
  exact ⟨oneLine_of_isIdentifier hsource, oneLine_of_isIdentifier htarget,
    (by decide : OneLine "--|>"), (by decide : '-' ∈ "--|>".toList), nofun, nofun, rfl⟩

theorem plain_edges (ids : Identifiers) (t : Table) (hids : Reached ids) :
    (∀ e ∈ (drawEdges ids t).1, Plain e) ∧ Continues ids (drawEdges ids t).2 := by
  obtain ⟨hsource, h⟩ := hids.idFor (t.schema ++ "\x00" ++ t.name) (t.schema ++ "." ++ t.name)
  obtain ⟨hkeys, h'⟩ := drawEach_spec (R := fun _ _ e => Plain e) (fun _ h => h)
    (plain_key _ hsource) h.reached t.foreignKeys
  obtain ⟨hparents, h''⟩ := drawEach_spec (R := fun _ _ e => Plain e) (fun _ h => h)
    (plain_parent t.schema _ hsource) h'.reached t.inherits
  refine ⟨fun e he => ?_, (h.trans h').trans h''⟩
  rcases List.mem_append.1 he with he | he
  · exact (exists_of_mem_right hkeys he).elim fun _ h => h.2
  · exact (exists_of_mem_right hparents he).elim fun _ h => h.2

/-! ## Diagrams -/

/-- The lines of the notes of a database's tables and views. -/
def Database.noteTexts (db : Database) : List (List String) :=
  db.schemas.flatMap Schema.noteTexts

/-- What the diagram of a database is put together from. -/
theorem diagram_spec (db : Database) : ∃ containers edges,
    List.Forall₂ DrawsSchema db.schemas containers ∧ (∀ e ∈ edges, Plain e) ∧
    db.diagram =
      { title := "Database Schema: " ++ db.name, preamble, edges
        containers := containers.filter (!·.isEmpty) } := by
  obtain ⟨hcontainers, h⟩ := drawEach_spec (R := fun _ s c => DrawsSchema s c) (fun _ h => h)
    draws_schema reached_empty db.schemas
  obtain ⟨hedges, -⟩ := drawEach_spec (R := fun _ _ es => ∀ e ∈ es, Plain e) (fun _ h => h)
    plain_edges h.reached db.tables
  refine ⟨_, _, hcontainers, fun e he => ?_, foldl_addContainer _ _⟩
  obtain ⟨es, hes, he⟩ := List.mem_flatten.1 he
  exact (exists_of_mem_right hedges hes).elim fun _ h => h.2 e he

/-- The nodes of the diagram are those of the tables and views, each with its note. -/
theorem forall₂_draws (db : Database) :
    List.Forall₂ Draws db.noteTexts (drawnNodes db.diagram) := by
  obtain ⟨containers, edges, hcontainers, -, hdiagram⟩ := diagram_spec db
  rw [hdiagram, drawnNodes, flatMap_filter_isEmpty _ fun _ h => h, List.append_nil]
  exact List.rel_flatMap hcontainers fun _ _ h => h.nodes

theorem flat_diagram (db : Database) : FlatDiagram db.diagram := by
  obtain ⟨containers, edges, hcontainers, hedges, hdiagram⟩ := diagram_spec db
  rw [hdiagram]
  refine ⟨?_, fun c hc => ?_, nofun, hedges⟩
  · exact fun l hl => ⟨(by decide : ∀ l ∈ preamble, OneLine l) l hl,
      (by decide : ∀ l ∈ preamble, l ∉ directives) l hl⟩
  · obtain ⟨s, -, hs⟩ := exists_of_mem_right hcontainers (List.mem_filter.1 hc).1
    exact ⟨fun n hn => (exists_of_mem_right hs.nodes hn).elim fun _ h => h.2.flat, hs.containers⟩

/-! ## Directives -/

/-- The lines of texts that reach the diagram as they are : those of the notes, and all lines of the
name of the database but the first, which follows the word for the title. -/
def Database.looseLines (db : Database) : List String :=
  (Text.lines (db.name ++ "\n")).tail ++ db.noteTexts.flatten

theorem flatMap_noteOf (texts : List (List String)) :
    (texts.flatMap noteOf).flatMap (·.lines) = texts.flatten := by
  induction texts with
  | nil => rfl
  | cons text texts ih =>
    have hnote : (noteOf text).flatMap (·.lines) = text := by
      cases text with
      | nil => rfl
      | cons l ls => simp [noteOf]
    rw [List.flatMap_cons, List.flatMap_append, hnote, ih, List.flatten_cons]

/-- A node has one note at most. -/
theorem notes_of_draws {texts : List (List String)} {ns : List Node}
    (h : List.Forall₂ Draws texts ns) :
    ns.flatMap (·.notes) = texts.flatMap noteOf ∧
      (texts.flatMap noteOf).length = ns.countP (!·.notes.isEmpty) := by
  induction h with
  | nil => exact ⟨rfl, rfl⟩
  | @cons text n texts ns hn _ ih =>
    have hone : (noteOf text).length = if (!(noteOf text).isEmpty) = true then 1 else 0 := by
      rw [noteOf]
      split_ifs <;> simp_all
    rw [List.flatMap_cons, List.flatMap_cons, hn.notes, ih.1, List.length_append, ih.2,
      List.countP_cons, hn.notes, ← hone]
    exact ⟨rfl, Nat.add_comm _ _⟩

/-- A directive is counted once for each node with a note, or once for the end of the diagram, and
once for each of the loose lines that it is. -/
theorem count_plantUml {w : String} (hw : w ∈ directives) (db : Database) :
    (Text.lines db.plantUml).count w = db.looseLines.count w +
      (if w = "end note" then (drawnNodes db.diagram).countP (!·.notes.isEmpty) else 0) +
        if w = "@enduml" then 1 else 0 := by
  obtain ⟨hnotes, hlength⟩ := notes_of_draws (forall₂_draws db)
  have htitle : (Text.lines (db.diagram.title ++ "\n")).tail =
      (Text.lines (db.name ++ "\n")).tail := by
    obtain ⟨containers, edges, -, -, hdiagram⟩ := diagram_spec db
    obtain ⟨l, ls, hl⟩ := Text.lines_newline db.name
    rw [hdiagram, String.append_assoc, Text.lines_append_of_eq_cons (by decide) hl, hl,
      List.tail_cons, List.tail_cons]
  rw [Database.plantUml, count_lines_render (flat_diagram db) hw, htitle, notes, hnotes, closings,
    flatMap_noteOf, hlength, Database.looseLines, List.count_append]
  simp only [Nat.add_assoc]

/-- The text of a diagram ends with its only `@enduml`, and has one `end note` for each node with a
note, but for the loose lines of the database that are such a directive themselves. So it keeps to
this shape exactly if no loose line is a directive. -/
theorem directives_of_plantUml (db : Database) :
    (Text.lines db.plantUml).getLast? = some "@enduml" ∧
    (Text.lines db.plantUml).count "@enduml" = 1 + db.looseLines.count "@enduml" ∧
    (Text.lines db.plantUml).count "end note" =
      (drawnNodes db.diagram).countP (!·.notes.isEmpty) + db.looseLines.count "end note" ∧
    (((Text.lines db.plantUml).count "@enduml" = 1 ∧ (Text.lines db.plantUml).count "end note" =
        (drawnNodes db.diagram).countP (!·.notes.isEmpty)) ↔
      ∀ l ∈ db.looseLines, l ∉ directives) := by
  have hdocument := count_plantUml (w := "@enduml") (by decide) db
  have hnote := count_plantUml (w := "end note") (by decide) db
  rw [if_neg (by decide), if_pos rfl] at hdocument
  rw [if_pos rfl, if_neg (by decide)] at hnote
  have hnone : (∀ l ∈ db.looseLines, l ∉ directives) ↔
      db.looseLines.count "@enduml" = 0 ∧ db.looseLines.count "end note" = 0 := by
    rw [List.count_eq_zero, List.count_eq_zero, directives]
    constructor
    · exact fun h => ⟨fun hm => h _ hm (by decide), fun hm => h _ hm (by decide)⟩
    · rintro ⟨hd, hn⟩ l hl hm
      rcases List.mem_pair.1 hm with rfl | rfl
      · exact hd hl
      · exact hn hl
  refine ⟨getLast?_lines_render _, by omega, by omega, ?_⟩
  rw [hnone]
  omega

/-- A database with a table whose comment has directives for lines. -/
def commentedDatabase : Database where
  name := "shop"
  schemas := [{ name := "public"
                tables := [{ schema := "public", name := "orders"
                             comment := some "open orders\nend note\n@enduml" }] }]

/-- A comment can end its note and the diagram. -/
theorem directives_of_comment :
    ¬∀ db : Database, (Text.lines db.plantUml).getLast? = some "@enduml" ∧
      (Text.lines db.plantUml).count "@enduml" = 1 ∧
      (Text.lines db.plantUml).count "end note" =
        (drawnNodes db.diagram).countP (!·.notes.isEmpty) := by
  intro h
  have hloose : commentedDatabase.looseLines.count "@enduml" = 1 := by decide +kernel
  have hcount := count_plantUml (w := "@enduml") (by decide) commentedDatabase
  rw [(h commentedDatabase).2.1, hloose, if_neg (by decide), if_pos rfl] at hcount
  omega

end Sql

end Atlas
