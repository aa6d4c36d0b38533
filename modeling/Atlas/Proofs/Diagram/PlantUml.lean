import Atlas.Diagram.PlantUml
import Atlas.Proofs.Text

/-!
# Directives in a PlantUML text

Some lines end something wherever they stand (`directives`). Headers, sections and edges of a
diagram give no such line, whatever their texts are (`Harmless`). The lines of a note below a node
and all lines of the title but the first are written as they are, so a directive among them is one
of the text (`count_lines_render`).
-/

set_option linter.unusedSectionVars false

namespace Atlas.PlantUml

/-! ## Directives -/

/-- The lines by which a note and a document end. -/
def directives : List String :=
  ["@enduml", "end note"]

/-- A line that is no directive. -/
structure Harmless (l : String) : Prop where
  oneLine : OneLine l
  notMem : l ∉ directives

theorem oneLine_directive : ∀ w ∈ directives, OneLine w := by
  decide

/-- Directives have no quotes, braces, hyphens and backslashes. -/
theorem char_notMem_directive :
    ∀ c ∈ ['"', '\x7b', '\x7d', '-', '\\'], ∀ w ∈ directives, c ∉ w.toList := by
  simp only [List.forall_mem_cons]
  exact ⟨by decide, by decide, by decide, by decide, by decide, nofun⟩

theorem head?_directive :
    ∀ c ∈ [' ', 'n', 't'], ∀ w ∈ directives, w.toList.head? ≠ some c := by
  simp only [List.forall_mem_cons]
  exact ⟨by decide, by decide, by decide, nofun⟩

section Directive

variable {w : String} (hw : w ∈ directives)

include hw

theorem ne_of_mem {l : String} {c : Char} (hc : c ∈ ['"', '\x7b', '\x7d', '-', '\\'])
    (h : c ∈ l.toList) : l ≠ w := by
  rintro rfl
  exact char_notMem_directive c hc l hw h

theorem ne_of_head? {l : String} {c : Char} (hc : c ∈ [' ', 'n', 't'])
    (h : l.toList.head? = some c) : l ≠ w := by
  rintro rfl
  exact head?_directive c hc l hw h

end Directive

theorem harmless_of_mem {l : String} {c : Char} (hc : c ∈ ['"', '\x7b', '\x7d', '-', '\\'])
    (hl : OneLine l) (h : c ∈ l.toList) : Harmless l :=
  ⟨hl, fun hmem => ne_of_mem hmem hc h rfl⟩

theorem harmless_of_head? {l : String} {c : Char} (hc : c ∈ [' ', 'n', 't'])
    (hl : OneLine l) (h : l.toList.head? = some c) : Harmless l :=
  ⟨hl, fun hmem => ne_of_head? hmem hc h rfl⟩

theorem count_eq_zero {w : String} (hw : w ∈ directives) {ls : List String}
    (h : ∀ l ∈ ls, Harmless l) : ls.count w = 0 :=
  List.count_eq_zero.2 fun hmem => (h w hmem).notMem hw

theorem count_single (w l : String) : [l].count w = if w = l then 1 else 0 := by
  rw [List.count_singleton]
  exact if_congr (beq_iff_eq.trans eq_comm) rfl rfl

/-! ## Nodes -/

theorem oneLine_pad (depth : ℕ) : OneLine (pad depth) := by
  have h : ∀ c ∈ (pad depth).toList, c = ' ' := by
    rw [pad, Text.toList_repeated]
    simp
  exact ⟨fun hn => absurd (h _ hn) (by decide), fun hr => absurd (h _ hr) (by decide)⟩

/-- What starts with a blank starts with one in any depth. -/
theorem harmless_pad (depth : ℕ) {s : String} (hs : OneLine s) (h : s.toList.head? = some ' ') :
    Harmless (pad depth ++ s) := by
  refine harmless_of_head? List.mem_cons_self (oneLine_append.2 ⟨oneLine_pad depth, hs⟩) ?_
  rw [String.toList_append, pad, Text.toList_repeated]
  cases depth with
  | zero => exact h
  | succ n => rfl

theorem harmless_nodeHeader {indent label id : String} {shape : Shape} {stereotype : Option String}
    (hindent : OneLine indent) (hid : OneLine id) (hs : ∀ s ∈ stereotype, OneLine s) :
    Harmless (nodeHeader indent shape label id stereotype) := by
  have hshape : OneLine shape.word := by cases shape <;> decide
  refine harmless_of_mem List.mem_cons_self ?_ (?_ : '"' ∈ _)
  · cases stereotype with
    | none => simp +decide [nodeHeader, hindent, hid, hshape, Text.oneLine_escape]
    | some s => simp +decide [nodeHeader, hindent, hid, hshape, Text.oneLine_escape, hs s rfl]
  · simp [nodeHeader]

theorem harmless_sectionLines (depth : ℕ) (s : Section) :
    ∀ l ∈ sectionLines (pad depth) s, Harmless l := by
  intro l hl
  rw [sectionLines, List.mem_append, List.mem_append] at hl
  rcases hl with (hl | hl) | hl
  · split at hl
    · rw [List.mem_singleton.1 hl]
      exact harmless_pad depth (by decide) (by decide)
    · cases hl
  · split at hl
    · rw [List.mem_singleton.1 hl, String.append_assoc, String.append_assoc]
      exact harmless_pad depth (by simp +decide [Text.oneLine_singleLine]) (by simp)
    · cases hl
  · obtain ⟨t, -, rfl⟩ := List.mem_map.1 hl
    rw [String.append_assoc]
    exact harmless_pad depth (by simp +decide [Text.oneLine_singleLine]) (by simp)

/-- What the notes of some nodes add to a count of directives : their own lines, and an end for each
note. -/
def closings (w : String) (notes : List Note) : ℕ :=
  (notes.flatMap (·.lines)).count w + if w = "end note" then notes.length else 0

theorem closings_append (w : String) (a b : List Note) :
    closings w (a ++ b) = closings w a + closings w b := by
  rw [closings, closings, closings, List.flatMap_append, List.count_append, List.length_append]
  split_ifs <;> omega

/-- A directive is kept on one line as it is, and nothing else is kept as a directive. -/
theorem count_map_singleLine {w : String} (hw : w ∈ directives) (ls : List String) :
    (ls.map Text.singleLine).count w = ls.count w := by
  rw [List.count_eq_countP, List.count_eq_countP, List.countP_map]
  refine List.countP_congr fun l _ => ?_
  rw [Function.comp_apply, beq_iff_eq, beq_iff_eq]
  exact Text.singleLine_eq_iff (oneLine_directive w hw) (char_notMem_directive _ (by decide) w hw)

theorem count_detachedNoteLines {w : String} (hw : w ∈ directives) {id : String} (hid : OneLine id)
    (note : Note) : (detachedNoteLines "" id note).count w = closings w [note] := by
  have hheader : Harmless ("note bottom of " ++ id) :=
    harmless_of_head? (c := 'n') (by decide) (by simp +decide [hid]) (by simp)
  have hmap : note.lines.map ("" ++ Text.singleLine ·) = note.lines.map Text.singleLine := by
    simp only [String.empty_append]
  rw [detachedNoteLines, List.count_append, List.count_append, hmap, count_map_singleLine hw,
    String.empty_append, String.empty_append,
    count_eq_zero hw (List.forall_mem_singleton.2 hheader), count_single, closings]
  simp

/-- A node without nodes inside, whose notes all hang below it and whose identifier and stereotype
are each on one line. -/
structure Flat (n : Node) : Prop where
  id : OneLine n.id
  stereotype : ∀ s ∈ n.stereotype, OneLine s
  detached : ∀ note ∈ n.notes, note.detached = true
  children : n.children = []

theorem nodeLines_of_flat {n : Node} (h : Flat n) : nodeLines 0 n =
    nodeHeader (pad 0) n.shape n.label n.id n.stereotype ::
      n.sections.flatMap (sectionLines (pad 0)) ++ [pad 0 ++ "\x7d"] ++
      n.notes.flatMap (detachedNoteLines "" n.id) := by
  obtain ⟨shape, id, label, stereotype, style, sections, notes, children⟩ := n
  obtain ⟨-, -, hdetached, hchildren⟩ := h
  dsimp only at hdetached hchildren
  have hinside : notes.filter (!·.detached) = [] :=
    List.filter_eq_nil_iff.2 fun note hn => by simp [hdetached note hn]
  have hbelow : notes.filter (·.detached) = notes := List.filter_eq_self.2 hdetached
  rw [nodeLines, hchildren, nodesLines, hinside, hbelow]
  simp only [List.zipIdx_nil, List.map_nil, List.append_nil]
  rfl

theorem harmless_frame {n : Node} (h : Flat n) :
    ∀ l ∈ nodeHeader (pad 0) n.shape n.label n.id n.stereotype ::
      n.sections.flatMap (sectionLines (pad 0)) ++ [pad 0 ++ "\x7d"], Harmless l := by
  intro l hl
  rw [List.mem_append, List.mem_cons, List.mem_singleton] at hl
  rcases hl with (rfl | hl) | rfl
  · exact harmless_nodeHeader (oneLine_pad 0) h.id h.stereotype
  · obtain ⟨s, -, hl⟩ := List.mem_flatMap.1 hl
    exact harmless_sectionLines 0 s l hl
  · exact harmless_of_mem (c := '\x7d') (by decide) (by decide) (by simp)

/-- Of the lines of a node, its notes alone can hold directives. -/
theorem count_nodeLines {w : String} (hw : w ∈ directives) {n : Node} (h : Flat n) :
    (nodeLines 0 n).count w = closings w n.notes := by
  rw [nodeLines_of_flat h, List.count_append, count_eq_zero hw (harmless_frame h), Nat.zero_add]
  induction n.notes with
  | nil => simp [closings]
  | cons note notes ih =>
    rw [List.flatMap_cons, List.count_append, count_detachedNoteLines hw h.id, ih,
      ← closings_append, List.singleton_append]

theorem oneLine_nodeLines {n : Node} (h : Flat n) : ∀ l ∈ nodeLines 0 n, OneLine l := by
  intro l hl
  rw [nodeLines_of_flat h, List.mem_append] at hl
  rcases hl with hl | hl
  · exact (harmless_frame h l hl).oneLine
  · obtain ⟨note, -, hl⟩ := List.mem_flatMap.1 hl
    rw [detachedNoteLines, List.mem_append, List.mem_append, List.mem_singleton,
      List.mem_singleton] at hl
    rcases hl with (rfl | hl) | rfl
    · simp +decide [h.id]
    · obtain ⟨t, -, rfl⟩ := List.mem_map.1 hl
      simp +decide [Text.oneLine_singleLine]
    · decide

theorem nodesLines_eq (depth : ℕ) (ns : List Node) :
    nodesLines depth ns = ns.flatMap (nodeLines depth) := by
  induction ns with
  | nil => rfl
  | cons n ns ih => rw [nodesLines, ih, List.flatMap_cons]

theorem count_nodesLines {w : String} (hw : w ∈ directives) {ns : List Node}
    (h : ∀ n ∈ ns, Flat n) : (nodesLines 0 ns).count w = closings w (ns.flatMap (·.notes)) := by
  induction ns with
  | nil => simp [nodesLines, closings]
  | cons n ns ih =>
    obtain ⟨hn, hns⟩ := List.forall_mem_cons.1 h
    rw [nodesLines, List.count_append, count_nodeLines hw hn, ih hns, List.flatMap_cons,
      closings_append]

theorem oneLine_nodesLines {ns : List Node} (h : ∀ n ∈ ns, Flat n) :
    ∀ l ∈ nodesLines 0 ns, OneLine l := by
  intro l hl
  rw [nodesLines_eq] at hl
  obtain ⟨n, hn, hl⟩ := List.mem_flatMap.1 hl
  exact oneLine_nodeLines (h n hn) l hl

/-! ## Containers -/

/-- A container without further ones, whose nodes are flat. -/
structure FlatContainer (c : Container) : Prop where
  nodes : ∀ n ∈ c.nodes, Flat n
  containers : c.containers = []

theorem containerLines_of_flat {c : Container} (h : FlatContainer c) : containerLines 0 c =
    ["package \"" ++ Text.escape c.name ++ "\" \x7b"] ++ nodesLines 0 c.nodes ++ ["\x7d"] := by
  obtain ⟨name, nodes, containers⟩ := c
  obtain ⟨-, hnone⟩ := h
  dsimp only at hnone
  rw [containerLines, hnone, containersLines, List.append_nil]
  rfl

theorem harmless_packageHeader (name : String) :
    Harmless ("package \"" ++ Text.escape name ++ "\" \x7b") :=
  harmless_of_mem (c := '"') (by decide) (by simp +decide [Text.oneLine_escape]) (by simp)

theorem harmless_close : Harmless "\x7d" :=
  ⟨by decide, by decide⟩

theorem count_containerLines {w : String} (hw : w ∈ directives) {c : Container}
    (h : FlatContainer c) :
    (containerLines 0 c).count w = closings w (c.nodes.flatMap (·.notes)) := by
  rw [containerLines_of_flat h, List.count_append, List.count_append, count_nodesLines hw h.nodes,
    count_eq_zero hw (List.forall_mem_singleton.2 (harmless_packageHeader c.name)),
    count_eq_zero hw (List.forall_mem_singleton.2 harmless_close), Nat.zero_add, Nat.add_zero]

theorem oneLine_containerLines {c : Container} (h : FlatContainer c) :
    ∀ l ∈ containerLines 0 c, OneLine l := by
  rw [containerLines_of_flat h]
  refine List.forall_mem_append.2 ⟨List.forall_mem_append.2 ⟨?_, oneLine_nodesLines h.nodes⟩, ?_⟩
  · exact List.forall_mem_singleton.2 (harmless_packageHeader c.name).oneLine
  · exact List.forall_mem_singleton.2 harmless_close.oneLine

/-! ## Edges -/

/-- An edge without a note, whose pieces are each on one line. -/
structure Plain (e : Edge) : Prop where
  source : OneLine e.source
  target : OneLine e.target
  arrow : OneLine e.arrow
  hyphen : '-' ∈ e.arrow.toList
  sourceCount : ∀ m ∈ e.sourceCount, OneLine m
  targetCount : ∀ m ∈ e.targetCount, OneLine m
  note : e.note = none

theorem oneLine_countText {m : Option String} (h : ∀ t ∈ m, OneLine t) : OneLine (countText m) := by
  cases m with
  | none => decide
  | some t => simp +decide [countText, h t rfl]

theorem harmless_edgeLines {e : Edge} (h : Plain e) : ∀ l ∈ edgeLines e, Harmless l := by
  have hlabel : ∀ l : String, l ∈ edgeLines e → OneLine l := by
    intro l hl
    rw [edgeLines, h.note, List.append_nil, List.mem_singleton] at hl
    subst hl
    cases e.label with
    | none => simp +decide [h.source, h.target, h.arrow, oneLine_countText h.sourceCount,
        oneLine_countText h.targetCount]
    | some t => simp +decide [h.source, h.target, h.arrow, oneLine_countText h.sourceCount,
        oneLine_countText h.targetCount, Text.oneLine_singleLine]
  intro l hl
  refine harmless_of_mem (c := '-') (by decide) (hlabel l hl) ?_
  rw [edgeLines, h.note, List.append_nil, List.mem_singleton] at hl
  simp [hl, h.hyphen]

/-! ## Diagrams -/

/-- A diagram of flat nodes and plain edges, whose preamble gives no directives. -/
structure FlatDiagram (d : Diagram) : Prop where
  preamble : ∀ l ∈ d.preamble, Harmless l
  containers : ∀ c ∈ d.containers, FlatContainer c
  nodes : ∀ n ∈ d.nodes, Flat n
  edges : ∀ e ∈ d.edges, Plain e

/-- The lines before the title. -/
def opening (d : Diagram) : List String :=
  ["@startuml", ""] ++ (if d.preamble.isEmpty then [] else d.preamble ++ [""])

/-- The lines between the title and the end. -/
def body (d : Diagram) : List String :=
  [""] ++ d.containers.flatMap (containerLines 0 · ++ [""]) ++ nodesLines 0 d.nodes ++
    d.edges.flatMap edgeLines

theorem lines_eq (d : Diagram) :
    lines d = opening d ++ ("title " ++ d.title) :: (body d ++ ["@enduml"]) := by
  simp [lines, opening, body, List.append_assoc]

/-- The nodes that are in no other node, those in containers first. -/
def drawnNodes (d : Diagram) : List Node :=
  d.containers.flatMap (·.nodes) ++ d.nodes

/-- The notes of these nodes. -/
def notes (d : Diagram) : List Note :=
  (drawnNodes d).flatMap (·.notes)

theorem harmless_empty : Harmless "" :=
  ⟨by decide, by decide⟩

section Render

variable {d : Diagram}

/-- The end of a text is its last line. -/
theorem getLast?_lines_render (d : Diagram) :
    (Text.lines (render d)).getLast? = some "@enduml" := by
  have hend : Text.lines ("@enduml" ++ "\n") = ["@enduml"] := Text.lines_of_oneLine (by decide)
  rw [render, lines_eq, Text.lines_unlines, List.flatMap_append, List.flatMap_cons,
    List.flatMap_append, List.flatMap_singleton, hend, ← List.append_assoc, ← List.append_assoc]
  exact List.getLast?_concat

variable (h : FlatDiagram d)

include h

theorem harmless_opening : ∀ l ∈ opening d, Harmless l := by
  have hstart : ∀ l ∈ ["@startuml", ""], Harmless l :=
    List.forall_mem_cons.2 ⟨⟨by decide, by decide⟩, List.forall_mem_singleton.2 harmless_empty⟩
  refine List.forall_mem_append.2 ⟨hstart, ?_⟩
  split_ifs
  · exact fun l hl => absurd hl List.not_mem_nil
  · exact List.forall_mem_append.2 ⟨h.preamble, List.forall_mem_singleton.2 harmless_empty⟩

theorem harmless_edges : ∀ l ∈ d.edges.flatMap edgeLines, Harmless l := by
  intro l hl
  obtain ⟨e, he, hl⟩ := List.mem_flatMap.1 hl
  exact harmless_edgeLines (h.edges e he) l hl

theorem oneLine_body : ∀ l ∈ body d, OneLine l := by
  refine List.forall_mem_append.2 ⟨List.forall_mem_append.2 ⟨List.forall_mem_append.2 ⟨?_, ?_⟩,
    oneLine_nodesLines h.nodes⟩, fun l hl => (harmless_edges h l hl).oneLine⟩
  · exact List.forall_mem_singleton.2 harmless_empty.oneLine
  · intro l hl
    obtain ⟨c, hc, hl⟩ := List.mem_flatMap.1 hl
    rcases List.mem_append.1 hl with hl | hl
    · exact oneLine_containerLines (h.containers c hc) l hl
    · exact List.mem_singleton.1 hl ▸ harmless_empty.oneLine

/-- Between the title and the end, the notes alone can hold directives. -/
theorem count_body {w : String} (hw : w ∈ directives) :
    (body d).count w = closings w (notes d) := by
  have hempty : [""].count w = 0 := count_eq_zero hw (List.forall_mem_singleton.2 harmless_empty)
  have hcontainers : ∀ cs : List Container, (∀ c ∈ cs, FlatContainer c) →
      (cs.flatMap (containerLines 0 · ++ [""])).count w =
        closings w ((cs.flatMap (·.nodes)).flatMap (·.notes)) := by
    intro cs hcs
    induction cs with
    | nil => simp [closings]
    | cons c cs ih =>
      obtain ⟨hc, hcs⟩ := List.forall_mem_cons.1 hcs
      rw [List.flatMap_cons, List.count_append, List.count_append, count_containerLines hw hc,
        hempty, ih hcs, List.flatMap_cons, List.flatMap_append, closings_append, Nat.add_zero]
  rw [body, List.count_append, List.count_append, List.count_append, hempty,
    hcontainers _ h.containers, count_nodesLines hw h.nodes, count_eq_zero hw (harmless_edges h),
    notes, drawnNodes, List.flatMap_append, closings_append, Nat.zero_add, Nat.add_zero]

/-- Every line of a text is one of the diagram's, but for those of its title. -/
theorem lines_render : Text.lines (render d) =
    opening d ++ Text.lines ("title " ++ d.title ++ "\n") ++ body d ++ ["@enduml"] := by
  have hopening : ∀ l ∈ opening d, OneLine l := fun l hl => (harmless_opening h l hl).oneLine
  have hbody : ∀ l ∈ body d ++ ["@enduml"], OneLine l :=
    List.forall_mem_append.2 ⟨oneLine_body h, List.forall_mem_singleton.2 (by decide)⟩
  rw [render, lines_eq, Text.lines_unlines, List.flatMap_append, List.flatMap_cons,
    Text.flatMap_lines_of_oneLine hopening, Text.flatMap_lines_of_oneLine hbody,
    List.append_assoc, List.append_assoc]

/-- The directives in the text of a diagram : those that end the notes and the text, those among the
lines of the notes, and those among the further lines of the title. -/
theorem count_lines_render {w : String} (hw : w ∈ directives) :
    (Text.lines (render d)).count w =
      (Text.lines (d.title ++ "\n")).tail.count w + closings w (notes d) +
        if w = "@enduml" then 1 else 0 := by
  obtain ⟨l, ls, hl⟩ := Text.lines_newline d.title
  have htitle : Text.lines ("title " ++ d.title ++ "\n") = ("title " ++ l) :: ls := by
    rw [String.append_assoc]
    exact Text.lines_append_of_eq_cons (by decide) hl
  have hfirst : "title " ++ l ≠ w := ne_of_head? (c := 't') hw (by decide) (by simp)
  rw [lines_render h, htitle, hl, List.tail_cons, List.count_append, List.count_append,
    List.count_append, count_eq_zero hw (harmless_opening h), List.count_cons_of_ne hfirst,
    count_body h hw, count_single, Nat.zero_add]

end Render

end Atlas.PlantUml
