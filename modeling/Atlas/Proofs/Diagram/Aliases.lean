import Atlas.Proofs.Diagram.Nodes
import Atlas.Proofs.Identifiers.Log

/-!
# Aliases in a PlantUML text

A node is declared with its identifier as its alias, and a note inside it with an alias that is made
of the identifier and the place of the note (`noteAlias`). A reader of single lines, which knows
nothing of the diagram (`declared?`), finds in a text just the aliases of the diagram, node by node,
and what further lines of the title declare (`declared_render`). The aliases of notes differ from
each other wherever the identifiers of nodes do, so that only an identifier that looks like the
alias of a note is declared twice (`nodup_flatMap_nodeAliases`).
-/

set_option linter.unusedSectionVars false

namespace Atlas.PlantUml

/-! ## Reading a declaration -/

/-- What follows the quote that ends a text. A character behind a backslash ends nothing. -/
def afterQuote? : List Char → Option (List Char)
  | [] => none
  | '"' :: r => some r
  | '\\' :: _ :: r => afterQuote? r
  | _ :: r => afterQuote? r

/-- The identifier behind a quoted text and the word `as`. -/
def alias? (s : List Char) : Option String := do
  let quoted ← Chars.dropPrefix? [' ', '"'] s
  let rest ← Chars.dropPrefix? " as ".toList (← afterQuote? quoted)
  return String.ofList (rest.takeWhile Chars.inIdentifier)

/-- The words that declarations start with. -/
def declaring : List String :=
  ["component", "class", "entity", "database", "note"]

/-- The alias that a line declares. -/
def declared? (line : String) : Option String :=
  let line := line.toList.dropWhile (· = ' ')
  if String.ofList (line.takeWhile (· ≠ ' ')) ∈ declaring then
    alias? (line.dropWhile (· ≠ ' '))
  else none

example : declared? "  component \"a \\\" as b\" as c_1 <<network>> \x7b" = some "c_1" := by
  decide

theorem dropWhile_indent {indent word rest : String} (hindent : ∀ c ∈ indent.toList, c = ' ')
    (hword : word.toList ≠ []) (hspace : ' ' ∉ word.toList) :
    (indent ++ word ++ rest).toList.dropWhile (· = ' ') = word.toList ++ rest.toList := by
  obtain ⟨c, w, hcw⟩ := List.exists_cons_of_ne_nil hword
  have hc : c ≠ ' ' := fun h => hspace (by rw [hcw, h]; exact List.mem_cons_self)
  rw [String.toList_append, String.toList_append, List.append_assoc,
    List.dropWhile_append_of_pos (by simpa using hindent), hcw, List.cons_append,
    List.dropWhile_cons_of_neg (by simpa using hc)]

theorem takeWhile_word {word rest : String} (hspace : ' ' ∉ word.toList)
    (hrest : ∀ c ∈ rest.toList.head?, c = ' ') :
    (word.toList ++ rest.toList).takeWhile (· ≠ ' ') = word.toList := by
  have hall : ∀ d ∈ word.toList, decide (d ≠ ' ') = true := fun d hd =>
    decide_eq_true fun h => hspace (h ▸ hd)
  rw [List.takeWhile_append_of_pos hall]
  cases h : rest.toList with
  | nil => exact List.append_nil _
  | cons d r => rw [hrest d (by rw [h]; rfl), List.takeWhile_cons_of_neg (by simp), List.append_nil]

/-- A line is read word by word. -/
theorem declared?_eq {indent word rest : String} (hindent : ∀ c ∈ indent.toList, c = ' ')
    (hword : word.toList ≠ []) (hspace : ' ' ∉ word.toList)
    (hrest : ∀ c ∈ rest.toList.head?, c = ' ') :
    declared? (indent ++ word ++ rest) = if word ∈ declaring then alias? rest.toList else none := by
  have hall : ∀ d ∈ word.toList, decide (d ≠ ' ') = true := fun d hd =>
    decide_eq_true fun h => hspace (h ▸ hd)
  have hleft : (word.toList ++ rest.toList).dropWhile (· ≠ ' ') = rest.toList := by
    rw [List.dropWhile_append_of_pos hall]
    cases h : rest.toList with
    | nil => rfl
    | cons d r => rw [hrest d (by rw [h]; rfl), List.dropWhile_cons_of_neg (by simp)]
  rw [declared?, dropWhile_indent hindent hword hspace, takeWhile_word hspace hrest, hleft,
    String.ofList_toList]

/-! ## Quoted texts -/

/-- A text that ends no quoted text that it stands in. -/
def Closed (s : String) : Prop :=
  ∀ r, afterQuote? (s.toList ++ r) = afterQuote? r

theorem closed_append {s t : String} (hs : Closed s) (ht : Closed t) : Closed (s ++ t) := fun r => by
  rw [String.toList_append, List.append_assoc, hs, ht]

theorem afterQuote?_cons {c : Char} (hback : c ≠ '\\') (hquote : c ≠ '"') (r : List Char) :
    afterQuote? (c :: r) = afterQuote? r := by
  rw [afterQuote?.eq_def]
  split
  · next h => cases h
  · next h => exact absurd (List.cons.inj h).1 hquote
  · next h => exact absurd (List.cons.inj h).1 hback
  · next h => rw [(List.cons.inj h).2]

theorem afterQuote?_escape (s r : List Char) :
    afterQuote? (Chars.escape s ++ r) = afterQuote? r := by
  induction s with
  | nil => rfl
  | cons c s ih =>
    rw [Chars.escape, List.flatMap_cons, List.append_assoc, ← Chars.escape, ← ih]
    fun_cases Chars.escapeChar c
    · rfl
    · rfl
    · rfl
    · rfl
    · next hback hquote _ _ => exact afterQuote?_cons hback hquote _

theorem closed_escape (s : String) : Closed (Text.escape s) := fun r => by
  rw [Text.escape, Text.onChars, String.toList_ofList]
  exact afterQuote?_escape _ r

theorem closed_intercalate {sep : String} {ss : List String} (hsep : Closed sep)
    (hss : ∀ s ∈ ss, Closed s) : Closed (String.intercalate sep ss) := by
  induction ss with
  | nil => exact fun r => rfl
  | cons s ss ih =>
    obtain ⟨hs, hss⟩ := List.forall_mem_cons.1 hss
    cases ss with
    | nil => rwa [String.intercalate_singleton]
    | cons t ss =>
      rw [String.intercalate_cons_cons]
      exact closed_append (closed_append hs hsep) (ih hss)

/-! ## Lines -/

theorem inIdentifier_of_isIdentifier {id : String} (h : IsIdentifier id) :
    ∀ c ∈ id.toList, Chars.inIdentifier c = true := fun c hc =>
  (Identifiers.inIdentifier_iff c).2 (h.forall_mem c hc)

theorem alias?_quoted {quoted id rest : String} (hquoted : Closed quoted)
    (hid : ∀ c ∈ id.toList, Chars.inIdentifier c = true)
    (hrest : ∀ c ∈ rest.toList.head?, c = ' ') :
    alias? (" \"" ++ quoted ++ "\" as " ++ id ++ rest).toList = some id := by
  have htext : (" \"" ++ quoted ++ "\" as " ++ id ++ rest).toList =
      [' ', '"'] ++ (quoted.toList ++ '"' :: (" as ".toList ++ (id.toList ++ rest.toList))) := by
    simp
  have htake : (id.toList ++ rest.toList).takeWhile Chars.inIdentifier = id.toList := by
    rw [List.takeWhile_append_of_pos hid]
    cases h : rest.toList with
    | nil => exact List.append_nil _
    | cons d r =>
      rw [hrest d (by rw [h]; rfl), List.takeWhile_cons_of_neg (by decide), List.append_nil]
  have hend : afterQuote? (quoted.toList ++ '"' :: (" as ".toList ++ (id.toList ++ rest.toList))) =
      some (" as ".toList ++ (id.toList ++ rest.toList)) := hquoted _
  simp only [alias?, htext, Chars.dropPrefix?_append, hend, Option.bind_eq_bind, Option.bind_some,
    htake, String.ofList_toList]
  rfl

/-- A declaration is read as one. -/
theorem declared?_declaration {indent word quoted id rest : String}
    (hindent : ∀ c ∈ indent.toList, c = ' ') (hword : word ∈ declaring) (hquoted : Closed quoted)
    (hid : ∀ c ∈ id.toList, Chars.inIdentifier c = true)
    (hrest : ∀ c ∈ rest.toList.head?, c = ' ') :
    declared? (indent ++ word ++ (" \"" ++ quoted ++ "\" as " ++ id ++ rest)) = some id := by
  have hplain : ∀ w ∈ declaring, w.toList ≠ [] ∧ ' ' ∉ w.toList := by decide
  obtain ⟨hne, hspace⟩ := hplain word hword
  rw [declared?_eq hindent hne hspace (by simp), if_pos hword, alias?_quoted hquoted hid hrest]

/-- A line that starts with another word declares nothing. -/
theorem declared?_of_word {indent word rest : String} (hindent : ∀ c ∈ indent.toList, c = ' ')
    (hword : word.toList ≠ [] ∧ ' ' ∉ word.toList ∧ word ∉ declaring)
    (hrest : ∀ c ∈ rest.toList.head?, c = ' ') : declared? (indent ++ word ++ rest) = none := by
  obtain ⟨hne, hspace, hnot⟩ := hword
  rw [declared?_eq hindent hne hspace hrest, if_neg hnot]

/-- A line with no quoted text behind its first word declares nothing. -/
theorem declared?_of_unquoted {word rest : String} (hword : word.toList ≠ [] ∧ ' ' ∉ word.toList)
    (hrest : rest.toList.head? ≠ some '"') : declared? (word ++ " " ++ rest) = none := by
  have hnone : alias? (" " ++ rest).toList = none := by
    have htext : (" " ++ rest).toList = ' ' :: rest.toList := by simp
    have hprefix : Chars.dropPrefix? [' ', '"'] (' ' :: rest.toList) = none := by
      cases h : rest.toList with
      | nil => rfl
      | cons c r =>
        have hc : c ≠ '"' := fun hc => hrest (by rw [h, hc]; rfl)
        simp [Chars.dropPrefix?, Chars.startsWith, List.isPrefixOf, Ne.symm hc]
    rw [alias?, htext, hprefix]
    rfl
  have hline : declared? ("" ++ word ++ (" " ++ rest)) =
      if word ∈ declaring then alias? (" " ++ rest).toList else none :=
    declared?_eq (by simp) hword.1 hword.2 (by simp)
  rw [String.empty_append, ← String.append_assoc] at hline
  rw [hline, hnone, ite_self]

/-! ## Aliases of nodes -/

mutual

/-- A node and all nodes inside it, in the order in which they are declared. -/
def nodesOf : Node → List Node
  | ⟨shape, id, label, stereotype, style, sections, notes, children⟩ =>
    ⟨shape, id, label, stereotype, style, sections, notes, children⟩ :: nodesOfAll children

/-- Several nodes and all nodes inside them. -/
def nodesOfAll : List Node → List Node
  | [] => []
  | n :: ns => nodesOf n ++ nodesOfAll ns

end

theorem nodesOfAll_eq (ns : List Node) : nodesOfAll ns = ns.flatMap nodesOf := by
  induction ns with
  | nil => rfl
  | cons n ns ih => rw [nodesOfAll, ih, List.flatMap_cons]

theorem nodesOf_eq (n : Node) : nodesOf n = n :: n.children.flatMap nodesOf := by
  obtain ⟨shape, id, label, stereotype, style, sections, notes, children⟩ := n
  rw [nodesOf, nodesOfAll_eq]

/-- The nodes of a diagram, those inside others too. -/
def allNodes (d : Diagram) : List Node :=
  (Mermaid.nodes d).flatMap nodesOf

/-- The alias of the note with index `i` inside the node `id`. -/
def noteAlias (id : String) (i : ℕ) : String :=
  Identifiers.numbered ("N_" ++ id) (i + 1)

/-- The aliases of the notes inside a node. -/
def noteAliases (n : Node) : List String :=
  (List.range (n.notes.filter (!·.detached)).length).map (noteAlias n.id)

/-- The identifier of a node and the aliases of the notes inside it. -/
def nodeAliases (n : Node) : List String :=
  n.id :: noteAliases n

/-- The aliases that a diagram declares. -/
def aliases (d : Diagram) : List String :=
  (allNodes d).flatMap nodeAliases

/-! ## Declarations -/

/-- The lines are one line each, and declare these aliases. -/
structure Declares (ls as : List String) : Prop where
  oneLine : ∀ l ∈ ls, OneLine l
  aliases : ls.filterMap declared? = as

namespace Declares

variable {ls ms as bs : List String}

theorem nil : Declares [] [] :=
  ⟨List.forall_mem_nil _, rfl⟩

theorem append (h : Declares ls as) (h' : Declares ms bs) : Declares (ls ++ ms) (as ++ bs) :=
  ⟨List.forall_mem_append.2 ⟨h.oneLine, h'.oneLine⟩, by
    rw [List.filterMap_append, h.aliases, h'.aliases]⟩

theorem one {l a : String} (hl : OneLine l) (ha : declared? l = some a) : Declares [l] [a] :=
  ⟨List.forall_mem_singleton.2 hl, List.filterMap_cons_some ha⟩

theorem silent (h : ∀ l ∈ ls, OneLine l ∧ declared? l = none) : Declares ls [] :=
  ⟨fun l hl => (h l hl).1, List.filterMap_eq_nil_iff.2 fun l hl => (h l hl).2⟩

theorem flatMap {α : Type} {items : List α} {f g : α → List String}
    (h : ∀ a ∈ items, Declares (f a) (g a)) : Declares (items.flatMap f) (items.flatMap g) := by
  induction items with
  | nil => exact nil
  | cons a items ih =>
    obtain ⟨ha, hitems⟩ := List.forall_mem_cons.1 h
    exact ha.append (ih hitems)

end Declares

theorem forall_mem_pad (depth : ℕ) : ∀ c ∈ (pad depth).toList, c = ' ' := by
  rw [pad, Text.toList_repeated]
  simp

theorem isIdentifier_noteAlias {id : String} (h : IsIdentifier id) (i : ℕ) :
    IsIdentifier (noteAlias id i) := by
  refine Identifiers.isIdentifier_numbered ⟨'N', '_' :: id.toList, by simp, Or.inl rfl, ?_⟩ _
  exact List.forall_mem_cons.2 ⟨Or.inr rfl, h.forall_mem⟩

/-- A node and all that is inside it have notes inside only, and no sections. -/
inductive Inline : Node → Prop
  | intro {n : Node} (id : IsIdentifier n.id) (stereotype : ∀ s ∈ n.stereotype, OneLine s)
      (sections : n.sections = []) (notes : ∀ note ∈ n.notes, note.detached = false)
      (children : ∀ c ∈ n.children, Inline c) : Inline n

namespace Inline

variable {n : Node}

theorem addNote (h : Inline n) {note : Note} (hnote : note.detached = false) :
    Inline (n.addNote note) := by
  obtain ⟨hid, hs, hsections, hnotes, hchildren⟩ := h
  rw [Node.addNote]
  split
  · exact ⟨hid, hs, hsections, hnotes, hchildren⟩
  · exact ⟨hid, hs, hsections,
      List.forall_mem_append.2 ⟨hnotes, List.forall_mem_singleton.2 hnote⟩, hchildren⟩

theorem foldl_addChild (h : Inline n) {cs : List Node} (hcs : ∀ c ∈ cs, Inline c) :
    Inline (cs.foldl Node.addChild n) := by
  obtain ⟨hid, hs, hsections, hnotes, hchildren⟩ := h
  rw [Node.foldl_addChild]
  exact ⟨hid, hs, hsections, hnotes, List.forall_mem_append.2 ⟨hchildren, hcs⟩⟩

end Inline

theorem declares_nodeHeader {id : String} (hid : IsIdentifier id) (depth : ℕ) (shape : Shape)
    (label : String) {stereotype : Option String} (hs : ∀ s ∈ stereotype, OneLine s) :
    Declares [nodeHeader (pad depth) shape label id stereotype] [id] := by
  have hword : shape.word ∈ declaring := by cases shape <;> decide
  refine .one (harmless_nodeHeader (oneLine_pad depth) (oneLine_of_isIdentifier hid) hs).oneLine ?_
  have hline : ∀ rest : String, (∀ c ∈ rest.toList.head?, c = ' ') → declared? (pad depth ++
      shape.word ++ (" \"" ++ Text.escape label ++ "\" as " ++ id ++ rest)) = some id := fun _ =>
    declared?_declaration (forall_mem_pad depth) hword (closed_escape label)
      (inIdentifier_of_isIdentifier hid)
  cases stereotype with
  | none => simpa [nodeHeader, String.append_assoc] using hline " \x7b" (by simp)
  | some s => simpa [nodeHeader, String.append_assoc] using hline (" <<" ++ s ++ ">> \x7b") (by simp)

theorem declares_inlineNoteLine {id : String} (hid : IsIdentifier id) (depth : ℕ) (note : Note)
    (i : ℕ) : Declares [inlineNoteLine (pad depth) id note i] [noteAlias id i] := by
  have hindent : ∀ c ∈ (pad depth ++ "  ").toList, c = ' ' := by
    rw [String.toList_append]
    exact List.forall_mem_append.2 ⟨forall_mem_pad depth, by simp⟩
  have hquoted : Closed (String.intercalate "\\n" (note.lines.map Text.escape)) :=
    closed_intercalate (fun r => rfl) (List.forall_mem_map.2 fun l _ => closed_escape l)
  have halias := isIdentifier_noteAlias hid i
  have htext : inlineNoteLine (pad depth) id note i = pad depth ++ "  " ++ "note" ++
      (" \"" ++ String.intercalate "\\n" (note.lines.map Text.escape) ++ "\" as " ++
        noteAlias id i ++ "") := by
    rw [← String.toList_inj]
    simp [inlineNoteLine, noteAlias, Identifiers.numbered]
  rw [htext]
  refine .one ?_ (declared?_declaration hindent (by decide) hquoted
    (inIdentifier_of_isIdentifier halias) (by simp))
  have hone : OneLine (String.intercalate "\\n" (note.lines.map Text.escape)) :=
    Text.oneLine_intercalate (by decide) (List.forall_mem_map.2 fun l _ => Text.oneLine_escape l)
  simp +decide [oneLine_pad, hone, oneLine_of_isIdentifier halias]

/-- The notes inside a node have its aliases one after another. -/
theorem declares_inlineNotes {id : String} (hid : IsIdentifier id) (depth : ℕ) (notes : List Note) :
    Declares (notes.zipIdx.map fun q => inlineNoteLine (pad depth) id q.1 q.2)
      ((List.range notes.length).map (noteAlias id)) := by
  have hplaces : (List.range notes.length).map (noteAlias id) =
      notes.zipIdx.map fun q => noteAlias id q.2 := by
    rw [List.range_eq_range', ← List.zipIdx_map_snd, List.map_map]
    rfl
  rw [hplaces, List.map_eq_flatMap, List.map_eq_flatMap]
  exact .flatMap fun q _ => declares_inlineNoteLine hid depth q.1 q.2

theorem declares_close (depth : ℕ) : Declares [pad depth ++ "\x7d"] [] := by
  refine .silent (List.forall_mem_singleton.2 ⟨?_, ?_⟩)
  · exact oneLine_append.2 ⟨oneLine_pad depth, by decide⟩
  · have hline : declared? (pad depth ++ "\x7d" ++ "") = none :=
      declared?_of_word (forall_mem_pad depth) (by decide) (by simp)
    rwa [String.append_empty] at hline

theorem declares_nodeLines {n : Node} (h : Inline n) (depth : ℕ) :
    Declares (nodeLines depth n) ((nodesOf n).flatMap nodeAliases) := by
  induction h generalizing depth with
  | @intro n hid hs hsections hnotes _ ih =>
    obtain ⟨shape, id, label, stereotype, style, sections, notes, children⟩ := n
    dsimp only at hid hs hsections hnotes ih
    have hbelow : notes.filter (·.detached) = [] :=
      List.filter_eq_nil_iff.2 fun note hn => by simp [hnotes note hn]
    have hchildren : Declares (nodesLines (depth + 1) children)
        ((children.flatMap nodesOf).flatMap nodeAliases) := by
      rw [nodesLines_eq, List.flatMap_assoc]
      exact .flatMap fun c hc => ih c hc (depth + 1)
    have hnode := (((declares_nodeHeader hid depth shape label hs).append
      (declares_inlineNotes hid depth (notes.filter (!·.detached)))).append hchildren).append
        (declares_close depth)
    rw [nodeLines, hsections, hbelow, nodesOf_eq, List.flatMap_cons]
    simpa [nodeAliases, noteAliases] using hnode

theorem declares_nodesLines {ns : List Node} (h : ∀ n ∈ ns, Inline n) (depth : ℕ) :
    Declares (nodesLines depth ns) ((ns.flatMap nodesOf).flatMap nodeAliases) := by
  rw [nodesLines_eq, List.flatMap_assoc]
  exact .flatMap fun n hn => declares_nodeLines (h n hn) depth

theorem declares_packageHeader (depth : ℕ) (name : String) :
    Declares [pad depth ++ "package \"" ++ Text.escape name ++ "\" \x7b"] [] := by
  refine .silent (List.forall_mem_singleton.2 ⟨?_, ?_⟩)
  · simp +decide [oneLine_pad, Text.oneLine_escape]
  · have hline : declared? (pad depth ++ "package" ++
        (" \"" ++ Text.escape name ++ "\" \x7b")) = none :=
      declared?_of_word (forall_mem_pad depth) (by decide) (by simp)
    have htext : pad depth ++ "package \"" ++ Text.escape name ++ "\" \x7b" =
        pad depth ++ "package" ++ (" \"" ++ Text.escape name ++ "\" \x7b") := by
      rw [← String.toList_inj]
      simp
    rw [htext, hline]

mutual

theorem declares_containerLines (depth : ℕ) : ∀ c : Container,
    (∀ n ∈ Mermaid.containerNodes c, Inline n) → Declares (containerLines depth c)
      (((Mermaid.containerNodes c).flatMap nodesOf).flatMap nodeAliases)
  | ⟨name, nodes, containers⟩, h => by
    rw [Mermaid.containerNodes] at h ⊢
    obtain ⟨hnodes, hcontainers⟩ := List.forall_mem_append.1 h
    rw [containerLines, List.flatMap_append, List.flatMap_append]
    have hall := (((declares_packageHeader depth name).append
      (declares_nodesLines hnodes depth)).append
        (declares_containersLines (depth + 1) containers hcontainers)).append (declares_close depth)
    rwa [List.nil_append, List.append_nil] at hall

theorem declares_containersLines (depth : ℕ) : ∀ cs : List Container,
    (∀ n ∈ Mermaid.containersNodes cs, Inline n) → Declares (containersLines depth cs)
      (((Mermaid.containersNodes cs).flatMap nodesOf).flatMap nodeAliases)
  | [], _ => .nil
  | c :: cs, h => by
    rw [Mermaid.containersNodes] at h ⊢
    obtain ⟨hc, hcs⟩ := List.forall_mem_append.1 h
    rw [containersLines, List.flatMap_append, List.flatMap_append]
    exact (declares_containerLines depth c hc).append (declares_containersLines depth cs hcs)

end

/-- An edge between two identifiers, without counts and notes. -/
structure Bare (e : Edge) : Prop where
  source : IsIdentifier e.source
  target : IsIdentifier e.target
  arrow : OneLine e.arrow ∧ e.arrow.toList.head? ≠ some '"' ∧ e.arrow.toList ≠ []
  sourceCount : e.sourceCount = none
  targetCount : e.targetCount = none
  note : e.note = none

theorem declares_edgeLines {e : Edge} (h : Bare e) : Declares (edgeLines e) [] := by
  obtain ⟨source, arrow, target, sourceCount, targetCount, label, note⟩ := e
  obtain ⟨hsource, htarget, ⟨harrow, hquote, hne⟩, rfl, rfl, rfl⟩ := h
  dsimp only at hsource htarget harrow hquote hne
  have hword := And.intro hsource.toList_ne_nil hsource.space_notMem
  have hhead : ∀ text : String, (arrow ++ text).toList.head? ≠ some '"' := fun text => by
    rw [String.toList_append, List.head?_append_of_ne_nil _ hne]
    exact hquote
  rw [edgeLines, List.append_nil]
  refine .silent (List.forall_mem_singleton.2 ?_)
  cases label with
  | none =>
    refine ⟨?_, ?_⟩
    · simp +decide [countText, harrow, oneLine_of_isIdentifier hsource,
        oneLine_of_isIdentifier htarget]
    · have hline := declared?_of_unquoted hword (hhead (" " ++ target))
      simpa [countText, String.append_assoc] using hline
  | some l =>
    refine ⟨?_, ?_⟩
    · simp +decide [countText, harrow, oneLine_of_isIdentifier hsource,
        oneLine_of_isIdentifier htarget, Text.oneLine_singleLine]
    · have hline := declared?_of_unquoted hword
        (hhead (" " ++ target ++ " : " ++ Text.singleLine l))
      simpa [countText, String.append_assoc] using hline

/-! ## Texts -/

/-- A diagram whose nodes have notes inside only, with edges between identifiers. -/
structure InlineDiagram (d : Diagram) : Prop where
  preamble : Declares d.preamble []
  nodes : ∀ n ∈ Mermaid.nodes d, Inline n
  edges : ∀ e ∈ d.edges, Bare e

theorem declares_empty : Declares [""] [] :=
  .silent (List.forall_mem_singleton.2 (by decide))

section Render

variable {d : Diagram} (h : InlineDiagram d)

include h

theorem declares_opening : Declares (opening d) [] := by
  have hstart : Declares ["@startuml", ""] [] := .silent (by decide)
  rw [opening]
  split_ifs
  · exact hstart.append .nil
  · exact hstart.append (h.preamble.append declares_empty)

theorem declares_body : Declares (body d ++ ["@enduml"]) (aliases d) := by
  obtain ⟨hcontained, hnodes⟩ := List.forall_mem_append.1 h.nodes
  rw [containersNodes_eq, List.forall_mem_flatMap] at hcontained
  have hcontainers : Declares (d.containers.flatMap (containerLines 0 · ++ [""]))
      (d.containers.flatMap fun c =>
        ((Mermaid.containerNodes c).flatMap nodesOf).flatMap nodeAliases ++ []) :=
    .flatMap fun c hc => (declares_containerLines 0 c (hcontained c hc)).append declares_empty
  have hedges : Declares (d.edges.flatMap edgeLines) (d.edges.flatMap fun _ => []) :=
    .flatMap fun e he => declares_edgeLines (h.edges e he)
  rw [List.flatMap_eq_nil_iff.2 fun _ _ => rfl] at hedges
  have hend : Declares ["@enduml"] [] := .silent (by decide)
  have hall := (((declares_empty.append hcontainers).append (declares_nodesLines hnodes 0)).append
    hedges).append hend
  rw [aliases, allNodes, Mermaid.nodes, containersNodes_eq]
  simpa [body, List.flatMap_assoc] using hall

/-- The aliases that are read in a text are those of the diagram, and what further lines of the title
declare. -/
theorem declared_render : (Text.lines (render d)).filterMap declared? =
    (Text.lines (d.title ++ "\n")).tail.filterMap declared? ++ aliases d := by
  obtain ⟨l, ls, hl⟩ := Text.lines_newline d.title
  have htitle : Text.lines ("title " ++ d.title ++ "\n") = ("title " ++ l) :: ls := by
    rw [String.append_assoc]
    exact Text.lines_append_of_eq_cons (by decide) hl
  have hfirst : declared? ("title " ++ l) = none := by
    have hline : declared? ("" ++ "title" ++ (" " ++ l)) = none :=
      declared?_of_word (by simp) (by decide) (by simp)
    rwa [String.empty_append, ← String.append_assoc] at hline
  have hopening := declares_opening h
  have hbody := declares_body h
  rw [render, lines_eq, Text.lines_unlines, List.flatMap_append, List.flatMap_cons,
    Text.flatMap_lines_of_oneLine hopening.oneLine, Text.flatMap_lines_of_oneLine hbody.oneLine,
    List.filterMap_append, List.filterMap_append, hopening.aliases, hbody.aliases, htitle, hl,
    List.filterMap_cons_none hfirst, List.tail_cons, List.nil_append]

end Render

/-! ## Aliases that are declared once -/

theorem noteAlias_inj {id id' : String} {i j : ℕ} :
    noteAlias id i = noteAlias id' j ↔ id = id' ∧ i = j := by
  rw [noteAlias, noteAlias, Identifiers.numbered_inj, Nat.add_right_cancel_iff,
    String.append_right_inj]

theorem nodup_noteAliases (n : Node) : (noteAliases n).Nodup :=
  List.nodup_range.map fun _ _ h => (noteAlias_inj.1 h).2

theorem disjoint_noteAliases {n m : Node} (h : n.id ≠ m.id) :
    (noteAliases n).Disjoint (noteAliases m) := by
  intro a hn hm
  obtain ⟨i, -, rfl⟩ := List.mem_map.1 hn
  obtain ⟨j, -, hj⟩ := List.mem_map.1 hm
  exact h (noteAlias_inj.1 hj.symm).1

/-- Aliases are declared once just if identifiers are and none of them is the alias of a note. -/
theorem nodup_flatMap_nodeAliases (ns : List Node) : (ns.flatMap nodeAliases).Nodup ↔
    (ns.map (·.id)).Nodup ∧ ∀ n ∈ ns, ∀ m ∈ ns, n.id ∉ noteAliases m := by
  have hperm : (ns.map (·.id) ++ ns.flatMap noteAliases).Perm (ns.flatMap nodeAliases) := by
    rw [List.map_eq_flatMap]
    exact List.flatMap_append_perm ns (fun n => [n.id]) noteAliases
  have hnotes : (ns.map (·.id)).Nodup → (ns.flatMap noteAliases).Nodup := fun hids =>
    List.nodup_flatMap.2 ⟨fun n _ => nodup_noteAliases n,
      (List.pairwise_map.1 hids).imp disjoint_noteAliases⟩
  rw [← hperm.nodup_iff, List.nodup_append]
  constructor
  · rintro ⟨hids, -, hapart⟩
    exact ⟨hids, fun n hn m hm hmem =>
      hapart _ (List.mem_map_of_mem hn) _ (List.mem_flatMap.2 ⟨m, hm, hmem⟩) rfl⟩
  · rintro ⟨hids, hapart⟩
    refine ⟨hids, hnotes hids, List.forall_mem_map.2 fun n hn a ha he => ?_⟩
    obtain ⟨m, hm, hmem⟩ := List.mem_flatMap.1 ha
    exact hapart n hn m hm (he ▸ hmem)

/-! ## Identifiers that look like aliases of notes -/

/-- An identifier that the alias of a note may start with : `N`, or one that starts with `N_`. -/
def LikeNote (id : String) : Prop :=
  "N_".toList <+: (id ++ "_").toList

example : LikeNote "N" ∧ LikeNote "N_web_1" ∧ ¬LikeNote "Nginx" := by
  unfold LikeNote
  decide

theorem likeNote_noteAlias (id : String) (i : ℕ) : LikeNote (noteAlias id i) := by
  refine ⟨(id ++ "_" ++ toString (i + 1) ++ "_").toList, ?_⟩
  simp [noteAlias, Identifiers.numbered]

/-- What is put behind an identifier and an underscore changes nothing. -/
theorem likeNote_append_iff {id : String} (hid : IsIdentifier id) (rest : String) :
    LikeNote (id ++ "_" ++ rest) ↔ LikeNote id := by
  obtain ⟨c, r, hs, -⟩ := hid
  cases r with
  | nil => simp [LikeNote, hs]
  | cons d r => simp [LikeNote, hs]

theorem likeNote_numbered_iff {id : String} (hid : IsIdentifier id) (n : ℕ) :
    LikeNote (Identifiers.numbered id n) ↔ LikeNote id :=
  likeNote_append_iff hid (toString n)

/-- An answer looks like the alias of a note just if the name does that it is made of. -/
theorem likeNote_iff_of_madeOf {name id : String} (h : Identifiers.MadeOf name id) :
    LikeNote id ↔ LikeNote (Text.identifier name) := by
  rcases h with rfl | ⟨n, rfl⟩
  · exact Iff.rfl
  · exact likeNote_numbered_iff (Identifiers.isIdentifier_identifier name) n

end Atlas.PlantUml
