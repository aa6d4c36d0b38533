import Atlas.Proofs.Diagram.Aliases
import Mathlib.Algebra.Group.Nat.Even

/-!
# Quotes in a PlantUML text

A quote is escaped if the run of backslashes in front of it is odd. In an escaped text all quotes
are, and the run of backslashes at its end is even, so that a quote behind it is not
(`Chars.Quotable.escape`). A text in quotes ends at the first quote that is not escaped, and there
is only one such place (`Chars.EndsQuote.unique`). So a header of a node or container, of which
there is one among the lines of a diagram at any depth (`heads_lines`), is read in one way only, and
what is read is the label or the name (`quotes_iff`, `labels_quoted`).
-/

set_option linter.unusedSectionVars false

namespace Atlas

namespace Chars

/-! ## Runs of backslashes -/

/-- How many backslashes a text ends with. -/
def backslashes (s : List Char) : ℕ :=
  (s.reverse.takeWhile (· = '\\')).length

/-- An odd number of backslashes stands in front of every quote. -/
def QuotesEscaped (s : List Char) : Prop :=
  ∀ before behind, s = before ++ '"' :: behind → Odd (backslashes before)

theorem backslashes_concat (s : List Char) (c : Char) :
    backslashes (s ++ [c]) = if c = '\\' then backslashes s + 1 else 0 := by
  rw [backslashes, List.reverse_concat, List.takeWhile_cons]
  by_cases hc : c = '\\' <;> simp [hc, backslashes]

theorem quotesEscaped_nil : QuotesEscaped [] := fun before behind h => by
  cases before <;> cases h

/-- A character at the end matters only if it is a quote. -/
theorem quotesEscaped_concat {s : List Char} {c : Char} :
    QuotesEscaped (s ++ [c]) ↔ QuotesEscaped s ∧ (c = '"' → Odd (backslashes s)) := by
  constructor
  · intro h
    refine ⟨fun before behind hs => h before (behind ++ [c]) (by simp [hs]), ?_⟩
    rintro rfl
    exact h s [] rfl
  · rintro ⟨hs, hc⟩ before behind h
    rcases List.eq_nil_or_concat behind with rfl | ⟨behind, d, rfl⟩
    · obtain ⟨rfl, hlast⟩ := List.append_inj' h rfl
      exact hc (List.cons.inj hlast).1
    · rw [List.concat_eq_append, ← List.cons_append, ← List.append_assoc] at h
      exact hs before behind (List.append_inj' h rfl).1

/-! ## Quoted texts -/

/-- A text that can stand between two quotes: none of its own quotes ends it, and the one behind it
does. -/
structure Quotable (s : List Char) : Prop where
  even : Even (backslashes s)
  escaped : QuotesEscaped s

namespace Quotable

variable {s : List Char}

theorem nil : Quotable [] :=
  ⟨Even.zero, quotesEscaped_nil⟩

theorem concat (h : Quotable s) {c : Char} (hback : c ≠ '\\') (hquote : c ≠ '"') :
    Quotable (s ++ [c]) := by
  refine ⟨?_, quotesEscaped_concat.2 ⟨h.escaped, fun hc => absurd hc hquote⟩⟩
  rw [backslashes_concat, if_neg hback]
  exact Even.zero

/-- A backslash and what it escapes are put behind a text together. -/
theorem pair (h : Quotable s) (c : Char) : Quotable (s ++ ['\\', c]) := by
  have hodd : Odd (backslashes (s ++ ['\\'])) := by
    rw [backslashes_concat, if_pos rfl]
    exact h.even.add_one
  have hescaped : QuotesEscaped (s ++ ['\\']) :=
    quotesEscaped_concat.2 ⟨h.escaped, fun hc => absurd hc (by decide)⟩
  rw [List.append_cons]
  refine ⟨?_, quotesEscaped_concat.2 ⟨hescaped, fun _ => hodd⟩⟩
  rw [backslashes_concat]
  split_ifs
  · exact hodd.add_one
  · exact Even.zero

theorem escapeChar (h : Quotable s) (c : Char) : Quotable (s ++ escapeChar c) := by
  fun_cases Chars.escapeChar c with
  | case5 _ hback hquote _ _ => exact h.concat hback hquote
  | _ => exact h.pair _

/-- An escaped text can stand between quotes. -/
theorem escape (s : List Char) : Quotable (escape s) := by
  induction s using List.reverseRecOn with
  | nil => exact nil
  | append_singleton s c ih =>
    rw [Chars.escape, List.flatMap_append, List.flatMap_singleton]
    exact ih.escapeChar c

end Quotable

/-- The quote behind `inside` is the first one of a text that is not escaped. -/
structure EndsQuote (s inside behind : List Char) : Prop where
  eq : s = inside ++ '"' :: behind
  quotable : Quotable inside

/-- A quoted text ends at one quote only. -/
theorem EndsQuote.unique {s inside behind inside' behind' : List Char}
    (h : EndsQuote s inside behind) (h' : EndsQuote s inside' behind') :
    inside = inside' ∧ behind = behind' := by
  -- Of two such quotes the later one has the earlier one in the text before it, escaped.
  have hfirst : ∀ {t u r r' : List Char}, Even (backslashes t) → QuotesEscaped (t ++ u) →
      '"' :: r = u ++ '"' :: r' → u = [] := by
    intro t u r r' heven hescaped hu
    cases u with
    | nil => rfl
    | cons c u =>
      obtain ⟨rfl, -⟩ := List.cons.inj hu
      exact absurd (hescaped t u rfl) (Nat.not_odd_iff_even.2 heven)
  have heq := h.eq.symm.trans h'.eq
  rcases List.append_eq_append_iff.1 heq with ⟨u, rfl, hu⟩ | ⟨u, rfl, hu⟩
  · obtain rfl := hfirst h.quotable.even h'.quotable.escaped hu
    exact ⟨(List.append_nil _).symm, (List.cons.inj hu).2⟩
  · obtain rfl := hfirst h'.quotable.even h.quotable.escaped hu
    exact ⟨List.append_nil _, (List.cons.inj hu).2.symm⟩

end Chars

namespace PlantUml

/-! ## Headers -/

/-- The line that opens a node at a depth. -/
def header (depth : ℕ) (n : Node) : String :=
  nodeHeader (pad depth) n.shape n.label n.id n.stereotype

/-- What stands behind the label in that line. -/
def behindLabel (n : Node) : String :=
  " as " ++ n.id ++ (match n.stereotype with
    | some s => " <<" ++ s ++ ">>"
    | none => "") ++ " \x7b"

/-- The line that opens a container at a depth. -/
def packageHeader (depth : ℕ) (c : Container) : String :=
  pad depth ++ "package \"" ++ Text.escape c.name ++ "\" \x7b"

/-- The first quote of a line opens a text, the first one behind it that is not escaped ends it, and
without its escapes it is `text`. -/
def Quotes (line text behind : String) : Prop :=
  ∃ before quoted inside, Chars.cut? ['"'] line.toList = some (before, quoted) ∧
    Chars.EndsQuote quoted inside behind.toList ∧ Chars.unescape inside = text.toList

/-- A line is read in one way : what was escaped between the quotes is the text. -/
theorem quotes_iff (before : String) {line text behind : String} (hbefore : '"' ∉ before.toList)
    (hline : line = before ++ "\"" ++ Text.escape text ++ "\"" ++ behind) {t b : String} :
    Quotes line t b ↔ t = text ∧ b = behind := by
  have hcut : Chars.cut? ['"'] line.toList = some (before.toList,
      Chars.escape text.toList ++ '"' :: behind.toList) := by
    rw [Chars.cut?_singleton_eq_some_iff]
    exact ⟨by simp [hline, Text.escape, Text.onChars], hbefore⟩
  have hends : Chars.EndsQuote (Chars.escape text.toList ++ '"' :: behind.toList)
      (Chars.escape text.toList) behind.toList := ⟨rfl, .escape _⟩
  constructor
  · rintro ⟨_, quoted, inside, hc, he, ht⟩
    obtain ⟨-, rfl⟩ := Prod.mk.inj (Option.some.inj (hcut.symm.trans hc))
    obtain ⟨rfl, hb⟩ := hends.unique he
    rw [Chars.unescape_escape] at ht
    exact ⟨String.toList_inj.1 ht.symm, String.toList_inj.1 hb.symm⟩
  · rintro ⟨rfl, rfl⟩
    exact ⟨_, _, _, hcut, hends, Chars.unescape_escape _⟩

theorem quote_notMem_pad (depth : ℕ) : '"' ∉ (pad depth).toList := fun h =>
  absurd (forall_mem_pad depth _ h) (by decide)

theorem quotes_header_iff (depth : ℕ) (n : Node) {t b : String} :
    Quotes (header depth n) t b ↔ t = n.label ∧ b = behindLabel n := by
  have hshape : '"' ∉ n.shape.word.toList := by cases n.shape <;> decide
  refine quotes_iff (pad depth ++ n.shape.word ++ " ") ?_ ?_
  · simp [quote_notMem_pad, hshape]
  · cases hs : n.stereotype <;> simp [header, nodeHeader, behindLabel, hs, ← String.toList_inj]

theorem quotes_packageHeader_iff (depth : ℕ) (c : Container) {t b : String} :
    Quotes (packageHeader depth c) t b ↔ t = c.name ∧ b = " \x7b" := by
  refine quotes_iff (pad depth ++ "package ") ?_ ?_
  · simp [quote_notMem_pad]
  · simp [packageHeader, ← String.toList_inj]

/-! ## Headers of a diagram -/

mutual

/-- A container and all containers in it. -/
def containersOf : Container → List Container
  | ⟨name, nodes, containers⟩ => ⟨name, nodes, containers⟩ :: containersOfAll containers

/-- Several containers and all containers in them. -/
def containersOfAll : List Container → List Container
  | [] => []
  | c :: cs => containersOf c ++ containersOfAll cs

end

/-- The lines hold headers of all these nodes and containers. -/
structure Heads (ls : List String) (ns : List Node) (cs : List Container) : Prop where
  node : ∀ n ∈ ns, ∃ depth, header depth n ∈ ls
  container : ∀ c ∈ cs, ∃ depth, packageHeader depth c ∈ ls

namespace Heads

variable {ls ms : List String} {ns ns' : List Node} {cs cs' : List Container}

theorem nil : Heads ls [] [] :=
  ⟨List.forall_mem_nil _, List.forall_mem_nil _⟩

theorem append (h : Heads ls ns cs) (h' : Heads ls ns' cs') : Heads ls (ns ++ ns') (cs ++ cs') :=
  ⟨List.forall_mem_append.2 ⟨h.node, h'.node⟩,
    List.forall_mem_append.2 ⟨h.container, h'.container⟩⟩

theorem mono (h : Heads ls ns cs) (hsub : ls ⊆ ms) : Heads ms ns cs :=
  ⟨fun n hn => (h.node n hn).imp fun _ => (hsub ·),
    fun c hc => (h.container c hc).imp fun _ => (hsub ·)⟩

theorem ofNode {depth : ℕ} {n : Node} (h : header depth n ∈ ls) : Heads ls [n] [] :=
  ⟨List.forall_mem_singleton.2 ⟨depth, h⟩, List.forall_mem_nil _⟩

theorem ofContainer {depth : ℕ} {c : Container} (h : packageHeader depth c ∈ ls) :
    Heads ls [] [c] :=
  ⟨List.forall_mem_nil _, List.forall_mem_singleton.2 ⟨depth, h⟩⟩

end Heads

mutual

theorem heads_nodeLines (depth : ℕ) : ∀ n : Node, Heads (nodeLines depth n) (nodesOf n) []
  | ⟨shape, id, label, stereotype, style, sections, notes, children⟩ => by
    set n : Node := ⟨shape, id, label, stereotype, style, sections, notes, children⟩ with hn
    have hheader : header depth n ∈ nodeLines depth n := by simp [hn, header, nodeLines]
    have hchildren : nodesLines (depth + 1) children ⊆ nodeLines depth n := fun l hl => by
      simp [hn, nodeLines, hl]
    rw [hn, nodesOf]
    exact (Heads.ofNode hheader).append ((heads_nodesLines (depth + 1) children).mono hchildren)

theorem heads_nodesLines (depth : ℕ) : ∀ ns : List Node,
    Heads (nodesLines depth ns) (nodesOfAll ns) []
  | [] => .nil
  | n :: ns => by
    rw [nodesLines, nodesOfAll]
    exact ((heads_nodeLines depth n).mono (List.subset_append_left _ _)).append
      ((heads_nodesLines depth ns).mono (List.subset_append_right _ _))

end

mutual

theorem heads_containerLines (depth : ℕ) : ∀ c : Container, Heads (containerLines depth c)
    ((Mermaid.containerNodes c).flatMap nodesOf) (containersOf c)
  | ⟨name, nodes, containers⟩ => by
    have hheader : packageHeader depth ⟨name, nodes, containers⟩ ∈
        containerLines depth ⟨name, nodes, containers⟩ := by simp [packageHeader, containerLines]
    have hnodes : nodesLines depth nodes ⊆ containerLines depth ⟨name, nodes, containers⟩ :=
      fun l hl => by simp [containerLines, hl]
    have hcontainers : containersLines (depth + 1) containers ⊆
        containerLines depth ⟨name, nodes, containers⟩ := fun l hl => by simp [containerLines, hl]
    rw [Mermaid.containerNodes, List.flatMap_append, ← nodesOfAll_eq, containersOf]
    exact (Heads.ofContainer hheader).append (((heads_nodesLines depth nodes).mono hnodes).append
      ((heads_containersLines (depth + 1) containers).mono hcontainers))

theorem heads_containersLines (depth : ℕ) : ∀ cs : List Container,
    Heads (containersLines depth cs) ((Mermaid.containersNodes cs).flatMap nodesOf)
      (containersOfAll cs)
  | [] => .nil
  | c :: cs => by
    rw [Mermaid.containersNodes, List.flatMap_append, containersLines, containersOfAll]
    exact ((heads_containerLines depth c).mono (List.subset_append_left _ _)).append
      ((heads_containersLines depth cs).mono (List.subset_append_right _ _))

end

/-- The containers of a diagram, those in others too. -/
def allContainers (d : Diagram) : List Container :=
  d.containers.flatMap containersOf

theorem containersOfAll_eq (cs : List Container) :
    containersOfAll cs = cs.flatMap containersOf := by
  induction cs with
  | nil => rfl
  | cons c cs ih => rw [containersOfAll, ih, List.flatMap_cons]

theorem containersLines_eq (depth : ℕ) (cs : List Container) :
    containersLines depth cs = cs.flatMap (containerLines depth) := by
  induction cs with
  | nil => rfl
  | cons c cs ih => rw [containersLines, ih, List.flatMap_cons]

/-- The lines of a diagram hold headers of all its nodes and containers. -/
theorem heads_lines (d : Diagram) : Heads (lines d) (allNodes d) (allContainers d) := by
  have hcontainers : containersLines 0 d.containers ⊆ lines d := by
    rw [containersLines_eq]
    intro l hl
    obtain ⟨c, hc, hl⟩ := List.mem_flatMap.1 hl
    have hmem : l ∈ d.containers.flatMap (containerLines 0 · ++ [""]) :=
      List.mem_flatMap.2 ⟨c, hc, List.mem_append_left _ hl⟩
    simp [lines, hmem]
  have hnodes : nodesLines 0 d.nodes ⊆ lines d := fun l hl => by simp [lines, hl]
  have hall := ((heads_containersLines 0 d.containers).mono hcontainers).append
    ((heads_nodesLines 0 d.nodes).mono hnodes)
  rwa [nodesOfAll_eq, containersOfAll_eq, ← List.flatMap_append, List.append_nil] at hall

/-- Each node and container of a diagram has its header among the lines, and in it the quoted text
is read as the label of the node and as the name of the container. -/
structure ReadsHeaders (d : Diagram) : Prop where
  heads : Heads (lines d) (allNodes d) (allContainers d)
  label : ∀ n ∈ allNodes d, ∀ depth text behind,
    Quotes (header depth n) text behind ↔ text = n.label ∧ behind = behindLabel n
  name : ∀ c ∈ allContainers d, ∀ depth text behind,
    Quotes (packageHeader depth c) text behind ↔ text = c.name ∧ behind = " \x7b"

/-- An escaped text is one line that can stand in quotes, and is got back from there, as the escaped
text is from it. So the labels and names in the headers of a diagram are read as what they are. -/
theorem labels_quoted :
    (∀ s, Text.unescape (Text.escape s) = s ∧ OneLine (Text.escape s) ∧
      Chars.Quotable (Text.escape s).toList) ∧
    (∀ t ∈ Set.range Text.escape, Text.escape (Text.unescape t) = t) ∧
    ∀ d, ReadsHeaders d := by
  refine ⟨fun s => ⟨Text.unescape_escape s, Text.oneLine_escape s, ?_⟩, ?_, fun d =>
    ⟨heads_lines d, fun n _ depth _ _ => quotes_header_iff depth n,
      fun c _ depth _ _ => quotes_packageHeader_iff depth c⟩⟩
  · rw [Text.escape, Text.onChars, String.toList_ofList]
    exact .escape _
  · rintro _ ⟨s, rfl⟩
    rw [Text.unescape_escape]

/-- A node in a node, with a backslash and a quote at the end of its label. -/
def cornerNode : Node where
  shape := .component
  id := "inner"
  label := "\"C:\\\"\n\\"

/-- A diagram with that node in a container of a container. -/
def cornerDiagram : Diagram where
  title := "Corners"
  containers := [{ name := "all", containers := [{ name := "\\\"", nodes := [
    { shape := .component, id := "outer", label := "o", children := [cornerNode] }] }] }]

theorem labels_quoted_corner : cornerNode ∈ allNodes cornerDiagram ∧
    header 2 cornerNode ∈ lines cornerDiagram ∧
    header 2 cornerNode = "    component \"\\\"C:\\\\\\\"\\n\\\\\" as inner \x7b" ∧
    Quotes (header 2 cornerNode) cornerNode.label " as inner \x7b" ∧
    Text.escape "\"" ∈ Set.range Text.escape ∧
    Text.escape (Text.unescape (Text.escape "\"")) = Text.escape "\"" := by
  have hmem : cornerNode ∈ allNodes cornerDiagram := List.mem_cons_of_mem _ List.mem_cons_self
  have hrange : Text.escape "\"" ∈ Set.range Text.escape := Set.mem_range_self _
  exact ⟨hmem, by decide +kernel, by decide +kernel,
    ((labels_quoted.2.2 cornerDiagram).label _ hmem 2 _ _).2 ⟨rfl, by decide +kernel⟩,
    hrange, labels_quoted.2.1 _ hrange⟩

end PlantUml

end Atlas
