import Atlas.Diagram.Mermaid
import Atlas.Proofs.Text

/-!
# Documents in pieces

A line of a document is a list of pieces : texts that do not depend on any free text, and free texts
in the way in which a notation shows them. No free text as it is shown has a line feed
(`Piece.feed_notMem_text`), so the free texts of a document decide neither how many lines it has nor
on which of them they stand (`carried`). Two documents whose pieces differ in their free texts only
have the same lines wherever there is no free text (`sameLines_of_shapes`).
-/

set_option linter.unusedSectionVars false

namespace Atlas

/-! ## Pieces -/

/-- A piece of a line. -/
inductive Piece where
  /-- A text that is no free text. -/
  | fixed (text : String)
  /-- Lines of free text in one quoted label. -/
  | quoted (texts : List String)
  /-- Free text outside of quotes. -/
  | plain (text : String)
  /-- Free text in the brackets of a flowchart node. -/
  | boxed (text : String)
  deriving DecidableEq

namespace Piece

/-- How a piece is written. -/
def text : Piece → String
  | fixed t => t
  | quoted ts => String.intercalate "\\n" (ts.map Text.escape)
  | plain t => Text.singleLine t
  | boxed t => Mermaid.nodeText t

/-- What is known of a piece without its free text. -/
def shape : Piece → Option String
  | fixed t => some t
  | _ => none

theorem eq_fixed_of_shape {p : Piece} {t : String} (h : p.shape = some t) : p = fixed t := by
  cases p with
  | fixed u => exact congrArg fixed (Option.some.inj h)
  | _ => cases h

/-- The text of a line. -/
def line (ps : List Piece) : String :=
  String.join (ps.map text)

@[simp] theorem line_nil : line [] = "" :=
  rfl

@[simp] theorem line_cons (p : Piece) (ps : List Piece) : line (p :: ps) = p.text ++ line ps := by
  rw [line, List.map_cons, String.join_cons, line]

/-- The pieces of a document : those of its lines, each with a line feed behind it. -/
def document (ls : List (List Piece)) : List Piece :=
  ls.flatMap (· ++ [fixed "\n"])

theorem line_append (ps qs : List Piece) : line (ps ++ qs) = line ps ++ line qs := by
  induction ps with
  | nil => exact (String.empty_append).symm
  | cons p ps ih => rw [List.cons_append, line_cons, ih, line_cons, String.append_assoc]

theorem line_document (ls : List (List Piece)) :
    line (document ls) = Text.unlines (ls.map line) := by
  induction ls with
  | nil => rfl
  | cons ps ls ih =>
    have hfeed : line [fixed "\n"] = "\n" := by rw [line_cons, line_nil, String.append_empty]; rfl
    rw [document, List.flatMap_cons, line_append, line_append, hfeed, ← document, ih, Text.unlines,
      Text.unlines, List.map_cons, List.map_cons, String.join_cons]

/-! ## Free texts as they are shown -/

theorem oneLine_nodeText (label : String) : OneLine (Mermaid.nodeText label) := by
  obtain ⟨hfeed, hreturn⟩ := Text.oneLine_singleLine label
  have hquotes : OneLine (Text.replace "\"" "#quot;" (Text.singleLine label)) :=
    ⟨Text.char_notMem_replace (by decide) hfeed, Text.char_notMem_replace (by decide) hreturn⟩
  rw [Mermaid.nodeText]
  split_ifs
  · simp +decide [hquotes]
  · simp +decide [Text.oneLine_singleLine]

/-- A free text is shown on one line. -/
theorem feed_notMem_text {p : Piece} (h : p.shape = none) : '\n' ∉ p.text.toList := by
  cases p with
  | fixed t => cases h
  | plain t => exact (Text.oneLine_singleLine t).noFeed
  | boxed t => exact (oneLine_nodeText t).noFeed
  | quoted ts =>
    refine (Text.oneLine_intercalate (by decide) fun s hs => ?_).noFeed
    obtain ⟨l, -, rfl⟩ := List.mem_map.1 hs
    exact Text.oneLine_escape l

/-! ## Lines with free texts -/

/-- The free texts on each line of a document. -/
def carried : List Piece → List (List Piece)
  | [] => [[]]
  | fixed t :: ps => List.replicate (t.toList.count '\n') [] ++ carried ps
  | p :: ps => (carried ps).modifyHead (p :: ·)

theorem carried_of_free {p : Piece} (h : p.shape = none) (ps : List Piece) :
    carried (p :: ps) = (carried ps).modifyHead (p :: ·) := by
  cases p <;> first | rfl | cases h

/-- Two documents with these free texts on their lines are the same where there are none. -/
inductive Aligned : List (List Piece) → List (List Char) → List (List Char) → Prop
  | nil : Aligned [] [] []
  | cons {f fs l ls m ms} (same : f = [] → l = m) (rest : Aligned fs ls ms) :
      Aligned (f :: fs) (l :: ls) (m :: ms)

namespace Aligned

variable {fs : List (List Piece)} {ls ms : List (List Char)}

theorem modifyHead_append (h : Aligned fs ls ms) (t : List Char) :
    Aligned fs (ls.modifyHead (t ++ ·)) (ms.modifyHead (t ++ ·)) := by
  cases h with
  | nil => exact .nil
  | cons same rest => exact .cons (fun hf => congrArg (t ++ ·) (same hf)) rest

/-- Behind free texts anything can stand on a line. -/
theorem modifyHead_free (h : Aligned fs ls ms) (p : Piece) (t u : List Char) :
    Aligned (fs.modifyHead (p :: ·)) (ls.modifyHead (t ++ ·)) (ms.modifyHead (u ++ ·)) := by
  cases h with
  | nil => exact .nil
  | cons same rest => exact .cons (fun hf => absurd hf (List.cons_ne_nil _ _)) rest

theorem length_eq (h : Aligned fs ls ms) : ls.length = fs.length ∧ ms.length = fs.length := by
  induction h with
  | nil => exact ⟨rfl, rfl⟩
  | cons _ _ ih => exact ⟨congrArg (· + 1) ih.1, congrArg (· + 1) ih.2⟩

theorem getElem?_eq (h : Aligned fs ls ms) {i : ℕ} (hi : fs[i]? = some []) : ls[i]? = ms[i]? := by
  induction h generalizing i with
  | nil => rfl
  | cons same rest ih =>
    cases i with
    | zero => exact congrArg some (same (Option.some.inj hi))
    | succ i => exact ih hi

end Aligned

theorem aligned_fixed {fs : List (List Piece)} {r u : List Char}
    (h : Aligned fs (Chars.splitOn '\n' r) (Chars.splitOn '\n' u)) (t : List Char) :
    Aligned (List.replicate (t.count '\n') [] ++ fs) (Chars.splitOn '\n' (t ++ r))
      (Chars.splitOn '\n' (t ++ u)) := by
  induction t with
  | nil => exact h
  | cons c t ih =>
    by_cases hc : c = '\n'
    · subst hc
      rw [List.count_cons_self, List.replicate_succ, List.cons_append, List.cons_append]
      exact .cons (fun _ => rfl) ih
    · rw [List.count_cons_of_ne hc, List.cons_append, List.cons_append,
        Chars.splitOn_cons_of_ne hc, Chars.splitOn_cons_of_ne hc]
      exact ih.modifyHead_append [c]

/-- Two documents that differ in their free texts only are the same where there are none. -/
theorem aligned_of_shape {ps qs : List Piece} (h : ps.map shape = qs.map shape) :
    Aligned (carried ps) (Chars.splitOn '\n' (line ps).toList)
      (Chars.splitOn '\n' (line qs).toList) := by
  induction ps generalizing qs with
  | nil =>
    obtain rfl := List.map_eq_nil_iff.1 h.symm
    exact .cons (fun _ => rfl) .nil
  | cons p ps ih =>
    obtain ⟨q, qs, rfl, hpq, hrest⟩ := List.map_eq_cons_iff.1 h.symm
    have hlines := ih hrest.symm
    rw [line_cons, line_cons, String.toList_append, String.toList_append]
    cases hp : p.shape with
    | some t =>
      obtain rfl := eq_fixed_of_shape hp
      obtain rfl := eq_fixed_of_shape (hpq.trans hp)
      exact aligned_fixed hlines t.toList
    | none =>
      have hq : q.shape = none := hpq.trans hp
      rw [carried_of_free hp, Chars.splitOn_append_of_not_mem (feed_notMem_text hp),
        Chars.splitOn_append_of_not_mem (feed_notMem_text hq)]
      exact hlines.modifyHead_free p _ _

/-- The text that these pieces make up and another text have the same number of lines, and are the
same on each line on which none of the pieces is a free text. -/
structure SameLines (ps : List Piece) (s t : String) : Prop where
  text : line ps = s
  count : (Text.splitOn '\n' s).length = (carried ps).length
  length : (Text.splitOn '\n' t).length = (Text.splitOn '\n' s).length
  same : ∀ i : ℕ, (Piece.carried ps)[i]? = some [] →
    (Text.splitOn '\n' s)[i]? = (Text.splitOn '\n' t)[i]?

theorem sameLines_of_shape {ps qs : List Piece} (h : ps.map shape = qs.map shape) :
    SameLines ps (line ps) (line qs) := by
  have haligned := aligned_of_shape h
  have hlength : ∀ s : String,
      (Text.splitOn '\n' s).length = (Chars.splitOn '\n' s.toList).length := fun s =>
    List.length_map _
  refine ⟨rfl, ?_, ?_, fun i hi => ?_⟩
  · rw [hlength, haligned.length_eq.1]
  · rw [hlength, hlength, haligned.length_eq.1, haligned.length_eq.2]
  · rw [Text.splitOn, Text.splitOn, List.getElem?_map, List.getElem?_map, haligned.getElem?_eq hi]

/-! ## Documents -/

/-- What is known of lines without their free texts. -/
def shapes (ls : List (List Piece)) : List (List (Option String)) :=
  ls.map (·.map shape)

theorem map_shape_document (ls : List (List Piece)) :
    (document ls).map shape = (shapes ls).flatMap (· ++ [some "\n"]) := by
  rw [document, List.map_flatMap, shapes, List.flatMap_map]
  simp [shape]

/-- Documents that differ in their free texts only have the same lines. -/
theorem sameLines_of_shapes {ls ms : List (List Piece)} (h : shapes ls = shapes ms) :
    SameLines (document ls) (Text.unlines (ls.map line)) (Text.unlines (ms.map line)) := by
  rw [← line_document, ← line_document]
  exact sameLines_of_shape (by rw [map_shape_document, map_shape_document, h])

@[simp] theorem shapes_append (ls ms : List (List Piece)) :
    shapes (ls ++ ms) = shapes ls ++ shapes ms :=
  List.map_append

section Map

variable {α : Type} {g : α → α}

theorem shapes_map_map {f : α → List Piece} (h : ∀ a, (f (g a)).map shape = (f a).map shape)
    (as : List α) : shapes ((as.map g).map f) = shapes (as.map f) := by
  simp [shapes, h]

theorem shapes_flatMap_map {f : α → List (List Piece)} (h : ∀ a, shapes (f (g a)) = shapes (f a))
    (as : List α) : shapes ((as.map g).flatMap f) = shapes (as.flatMap f) := by
  induction as with
  | nil => rfl
  | cons a as ih =>
    rw [List.map_cons, List.flatMap_cons, List.flatMap_cons, shapes_append, shapes_append, h, ih]

end Map

end Piece

end Atlas
