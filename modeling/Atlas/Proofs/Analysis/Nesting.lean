import Atlas.Analysis.Document
import Atlas.Proofs.Text

/-!
# The nesting of headings

A heading of a section goes one level further down unless it stands in a fenced block. Whether it
does is told by the number of fences in all that stands before it, so a section that leaves a block
open turns headings and the lines of blocks round in every section behind it (`nestHeadings_body`).
Each section is nested as it stands on its own exactly if all parts of the documentation but the
last close the blocks that they open (`markdown_sections`), and a Go comment is enough to leave one
open (`nesting_carried_over`).
-/

set_option linter.unusedSectionVars false

namespace Atlas.Analysis

/-! ## Fences -/

theorem isFenced_cons (l : String) (ls : List String) :
    isFenced (l :: ls) = (isFence l != isFenced ls) := by
  rw [isFenced, isFenced, List.countP_cons]
  cases isFence l with
  | false => simp
  | true =>
    rcases Nat.mod_two_eq_zero_or_one (ls.countP isFence) with h | h <;> simp [Nat.add_mod, h]

theorem isFenced_append (ls ms : List String) :
    isFenced (ls ++ ms) = (isFenced ls != isFenced ms) := by
  induction ls with
  | nil => exact (Bool.false_bne _).symm
  | cons l ls ih => rw [List.cons_append, isFenced_cons, isFenced_cons, ih, Bool.bne_assoc]

/-! ## Lines -/

/-- Lines with each heading one level further down that stands in no fenced block, where `fenced`
tells whether the first line stands in one. -/
def nestedFrom (fenced : Bool) (ls : List String) : List String :=
  ls.mapIdx fun i l => if fenced != isFenced (ls.take i) then l else nested l

theorem nestedFrom_cons (fenced : Bool) (l : String) (ls : List String) :
    nestedFrom fenced (l :: ls) =
      (if fenced then l else nested l) :: nestedFrom (fenced != isFence l) ls := by
  rw [nestedFrom, List.mapIdx_cons, nestedFrom, List.take_zero]
  simp only [List.take_succ_cons, isFenced_cons, Bool.bne_assoc]
  rw [show isFenced [] = false from rfl, Bool.bne_false]

theorem nestHeadings_eq (fenced : Bool) (ls : List String) :
    nestHeadings fenced ls = nestedFrom fenced ls := by
  induction ls generalizing fenced with
  | nil => rfl
  | cons l ls ih => rw [nestHeadings, ih, nestedFrom_cons]

theorem nestHeadings_append (fenced : Bool) (ls ms : List String) :
    nestHeadings fenced (ls ++ ms) =
      nestHeadings fenced ls ++ nestHeadings (fenced != isFenced ls) ms := by
  induction ls generalizing fenced with
  | nil => rw [show isFenced [] = false from rfl, Bool.bne_false]; rfl
  | cons l ls ih =>
    rw [List.cons_append, nestHeadings, ih, nestHeadings, isFenced_cons, Bool.bne_assoc]
    rfl

theorem nestHeadings_blank (fenced : Bool) : nestHeadings fenced [""] = [""] := by
  cases fenced <;> decide

/-! ## Sections -/

/-- The lines of sections, where each is nested as it stands on its own. -/
def nestedApart (sections : List String) : List String :=
  sections.flatMap fun s => nestedFrom false (Text.lines s) ++ [""]

/-- The lines of sections, where each is nested behind all that stands before it. -/
def nestedBehind (before : List String) (sections : List String) : List String :=
  (sections.mapIdx fun i s =>
    nestedFrom (isFenced ((before ++ sections.take i).flatMap Text.lines)) (Text.lines s) ++
      [""]).flatten

theorem nestedBehind_cons (before : List String) (s : String) (ss : List String) :
    nestedBehind before (s :: ss) =
      nestedFrom (isFenced (before.flatMap Text.lines)) (Text.lines s) ++ [""] ++
        nestedBehind (before ++ [s]) ss := by
  rw [nestedBehind, List.mapIdx_cons, List.flatten_cons, List.take_zero, List.append_nil,
    nestedBehind]
  simp only [List.take_succ_cons, List.append_assoc, List.singleton_append]

/-- What is nested line by line is nested section by section, each behind those before it. -/
theorem nestHeadings_body (before sections : List String) :
    nestHeadings (isFenced (before.flatMap Text.lines))
        (sections.flatMap fun s => Text.lines s ++ [""]) =
      nestedBehind before sections := by
  induction sections generalizing before with
  | nil => rfl
  | cons s ss ih =>
    have hblank : isFence "" = false := by decide
    have hbehind : (isFenced (before.flatMap Text.lines) != isFenced (Text.lines s ++ [""])) =
        isFenced ((before ++ [s]).flatMap Text.lines) := by
      rw [List.flatMap_append, isFenced_append, List.flatMap_singleton, isFenced_append,
        isFenced_cons, hblank]
      simp [isFenced]
    rw [List.flatMap_cons, nestHeadings_append, hbehind, ih, nestedBehind_cons, nestHeadings_append,
      nestHeadings_blank, nestHeadings_eq]

theorem length_nestedFrom (fenced : Bool) (ls : List String) :
    (nestedFrom fenced ls).length = ls.length :=
  List.length_mapIdx

/-- A heading in front shows how lines are nested. -/
theorem nestedFrom_eq_iff {s l : String} {ls : List String} (hs : Text.lines s = l :: ls)
    (hl : Text.startsWith "#" l = true) (fenced : Bool) :
    nestedFrom fenced (Text.lines s) = nestedFrom false (Text.lines s) ↔ fenced = false := by
  refine ⟨fun h => ?_, fun h => h ▸ rfl⟩
  rw [hs, nestedFrom_cons, nestedFrom_cons, List.cons.injEq] at h
  cases fenced with
  | false => rfl
  | true =>
    have hne : l = "#" ++ l := by simpa [nested, hl] using h.1
    simpa using congrArg String.length hne

/-- Whether a text starts with a heading. -/
def StartsWithHeading (s : String) : Prop :=
  s.toList.head? = some '#'

theorem StartsWithHeading.lines {s : String} (h : StartsWithHeading s) :
    ∃ l ls, Text.lines s = l :: ls ∧ Text.startsWith "#" l = true := by
  obtain ⟨r, hr⟩ := List.head?_eq_some_iff.1 h
  rw [Text.lines, hr, Chars.lines_cons (by decide) (fun h => absurd h (by decide))]
  split
  · exact ⟨_, _, rfl, by decide⟩
  · exact ⟨_, _, rfl, by simp [Text.startsWith_iff]⟩

/-- Sections that start with a heading are nested as they stand on their own exactly if what stands
before them, and each of them but the last, closes the blocks that it opens. -/
theorem nestedBehind_eq_apart_iff (before : List String) {s : String} {ss : List String}
    (h : ∀ s' ∈ s :: ss, StartsWithHeading s') :
    nestedBehind before (s :: ss) = nestedApart (s :: ss) ↔
      isFenced (before.flatMap Text.lines) = false ∧
        ∀ part ∈ (s :: ss).dropLast, isFenced (Text.lines part) = false := by
  obtain ⟨hs, hss⟩ := List.forall_mem_cons.1 h
  obtain ⟨l, ls, hlines, hl⟩ := hs.lines
  have hsplit : nestedBehind before (s :: ss) = nestedApart (s :: ss) ↔
      isFenced (before.flatMap Text.lines) = false ∧
        nestedBehind (before ++ [s]) ss = nestedApart ss := by
    rw [nestedBehind_cons, nestedApart, List.flatMap_cons, ← nestedFrom_eq_iff hlines hl]
    constructor
    · intro heq
      obtain ⟨hfirst, hrest⟩ := List.append_inj heq (by simp [length_nestedFrom])
      exact ⟨List.append_cancel_right hfirst, hrest⟩
    · rintro ⟨hfirst, hrest⟩
      rw [hfirst, hrest, nestedApart]
  rw [hsplit]
  refine and_congr_right fun hbefore => ?_
  cases ss with
  | nil => simp [nestedBehind, nestedApart]
  | cons s' ss =>
    rw [nestedBehind_eq_apart_iff (before ++ [s]) hss, List.flatMap_append, isFenced_append, hbefore,
      Bool.false_bne, List.flatMap_singleton, List.dropLast_cons_cons, List.forall_mem_cons]

/-! ## The documentation -/

theorem StartsWithHeading.append {s : String} (h : StartsWithHeading s) (t : String) :
    StartsWithHeading (s ++ t) := by
  obtain ⟨r, hr⟩ := List.head?_eq_some_iff.1 h
  simp [StartsWithHeading, hr]

theorem StartsWithHeading.unlines {l : String} (h : StartsWithHeading l) (ls : List String) :
    StartsWithHeading (Text.unlines (l :: ls)) := by
  obtain ⟨r, hr⟩ := List.head?_eq_some_iff.1 h
  simp [StartsWithHeading, Text.toList_unlines, hr]

/-- Every section starts with a heading. -/
theorem startsWithHeading_of_mem_sections {a : Analysis} {s : String} (h : s ∈ a.sections) :
    StartsWithHeading s := by
  have hgolang : StartsWithHeading "# Project Documentation" := rfl
  have hkubernetes : StartsWithHeading "# Kubernetes Infrastructure" := rfl
  have hdatabase : StartsWithHeading "# Database: " := rfl
  have hdocker : StartsWithHeading "# Docker Project: " := rfl
  have hlaravel : StartsWithHeading "# Laravel Project: " := rfl
  have hnextjs : StartsWithHeading "# Next.js Project: " := rfl
  have hswagger : StartsWithHeading "# API: " := rfl
  simp only [sections, List.mem_append, Option.mem_toList, Option.map_eq_some_iff, List.mem_map] at h
  rcases h with (((((⟨p, -, rfl⟩ | ⟨m, -, rfl⟩) | ⟨db, -, rfl⟩) | ⟨p, -, rfl⟩) | ⟨p, -, rfl⟩) |
    ⟨p, -, rfl⟩) | ⟨s, -, rfl⟩
  · exact (((hgolang.unlines _).append _).append _).append _
  · exact ((hkubernetes.unlines _).append _).append _
  · exact (((hdatabase.append _).unlines _).append _).append _
  · exact (((hdocker.append _).unlines _).append _).append _
  · exact (((hlaravel.append _).unlines _).append _).append _
  · exact (((hnextjs.append _).unlines _).append _).append _
  · exact (hswagger.append _).unlines _

theorem feed_notMem_nested {l : String} (h : '\n' ∉ l.toList) : '\n' ∉ (nested l).toList := by
  rw [nested]
  split_ifs
  · simpa using h
  · exact h

/-- Nested lines of a text are lines. -/
theorem feed_notMem_nestedFrom (fenced : Bool) (s : String) :
    ∀ l ∈ nestedFrom fenced (Text.lines s) ++ [""], '\n' ∉ l.toList := by
  refine List.forall_mem_append.2 ⟨fun l hl => ?_, List.forall_mem_singleton.2 (by decide)⟩
  obtain ⟨i, hi, rfl⟩ := List.mem_mapIdx.1 hl
  have hfeed := Text.feed_notMem_of_mem_lines (List.getElem_mem hi)
  split_ifs
  · exact hfeed
  · exact feed_notMem_nested hfeed

theorem feed_notMem_nestedBehind (before sections : List String) :
    ∀ l ∈ nestedBehind before sections, '\n' ∉ l.toList := by
  intro l hl
  obtain ⟨ls, hls, hl⟩ := List.mem_flatten.1 hl
  obtain ⟨i, hi, rfl⟩ := List.mem_mapIdx.1 hls
  exact feed_notMem_nestedFrom _ _ l hl

theorem feed_notMem_nestedApart (sections : List String) :
    ∀ l ∈ nestedApart sections, '\n' ∉ l.toList := by
  intro l hl
  obtain ⟨s, -, hl⟩ := List.mem_flatMap.1 hl
  exact feed_notMem_nestedFrom _ _ l hl

/-- Each section is nested behind all that stands before it. -/
theorem markdown_eq_behind (a : Analysis) (t : Timing) :
    a.markdown t = heading t ++ Text.unlines (nestedBehind [heading t] a.sections) ++
      Text.unlines a.relationList := by
  rw [markdown, ← nestHeadings_body, List.flatMap_singleton]

/-- The sections are nested as each stands on its own exactly if every part of the documentation but
its last section closes the blocks that it opens. -/
theorem markdown_eq_apart_iff (a : Analysis) (t : Timing) :
    a.markdown t = heading t ++ Text.unlines (nestedApart a.sections) ++
        Text.unlines a.relationList ↔
      ∀ part ∈ (heading t :: a.sections).dropLast, isFenced (Text.lines part) = false := by
  rw [markdown_eq_behind, String.append_left_inj, String.append_right_inj,
    Text.unlines_inj (feed_notMem_nestedBehind _ _) (feed_notMem_nestedApart _)]
  cases hs : a.sections with
  | nil => simp [nestedBehind, nestedApart]
  | cons s ss =>
    have hheads : ∀ s' ∈ s :: ss, StartsWithHeading s' := by
      intro s' hs'
      rw [← hs] at hs'
      exact startsWithHeading_of_mem_sections hs'
    rw [nestedBehind_eq_apart_iff [heading t] hheads, List.flatMap_singleton,
      List.dropLast_cons_cons, List.forall_mem_cons]

/-- The sections stand between the first lines and the list of relations, each nested behind all
that stands before it. They are nested as each stands on its own exactly if every part of the
documentation but its last section closes the blocks that it opens. -/
theorem markdown_sections (a : Analysis) (t : Timing) :
    a.markdown t = heading t ++ Text.unlines (nestedBehind [heading t] a.sections) ++
        Text.unlines a.relationList ∧
      (a.markdown t = heading t ++ Text.unlines (nestedApart a.sections) ++
          Text.unlines a.relationList ↔
        ∀ part ∈ (heading t :: a.sections).dropLast, isFenced (Text.lines part) = false) :=
  ⟨markdown_eq_behind a t, markdown_eq_apart_iff a t⟩

/-- A Go project with one interface, whose comment is a fence. -/
def fencedProject : Golang.Project where
  directories := [{ path := "proj", files := [
    { name := "proj/shop.go", package := "shop"
      interfaces := [{ name := "Store", doc := "```", file := "proj/shop.go", line := 4 }] }] }]

/-- A comment in a Go file decides how the section on a Docker project is nested. -/
theorem nesting_carried_over :
    ¬∀ (a : Analysis) (t : Timing), a.markdown t =
      heading t ++ Text.unlines (nestedApart a.sections) ++ Text.unlines a.relationList := by
  intro h
  let a : Analysis :=
    { settings := {}, golang := some fencedProject, docker := some { name := "proj" } }
  let t : Timing := ⟨"", fun _ => .int 0, .int 0⟩
  have hparts := (markdown_eq_apart_iff a t).1 (h a t)
  have hmem : golangSection {} fencedProject ∈ (heading t :: a.sections).dropLast :=
    List.mem_cons_of_mem _ List.mem_cons_self
  have hopen : isFenced (Text.lines (golangSection {} fencedProject)) = true := by
    decide +kernel
  exact absurd (hparts _ hmem) (by rw [hopen]; decide)

end Atlas.Analysis
