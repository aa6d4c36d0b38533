import Atlas.Nextjs.Scan
import Atlas.Proofs.Files.Clean
import Mathlib.Data.List.Forall2
import Mathlib.Data.List.Induction

/-!
# Layouts of pages

A layout encloses a path if the parts of its directory are the first parts of the path
(`Layout.Encloses`). Names count as wholes: for paths along names the directory has to be the start
of the names (`Layout.encloses_iff`).

The layouts are gone through in order, and the deepest one that encloses the path is kept, the last
one of several (`KeepsDeepest.concat`). So the layout that is left is `Deepest`, and there is one
wherever some layout encloses the path (`deepestLayout?_eq_none_iff`). Each page of the app router
gets its path, and nothing else changes (`getsLayout_assignLayout`).
-/

set_option linter.unusedSectionVars false

namespace Atlas

/-! ## Parts of a path along names -/

namespace Path

instance (c : String) : Decidable (LeadsOn c) :=
  decidable_of_iff ('/' ∉ c.toList ∧ c ≠ "" ∧ c ≠ ".")
    ⟨fun h => ⟨h.1, h.2.1, h.2.2⟩, fun h => ⟨h.1, h.2, h.3⟩⟩

theorem parts_intercalate {names : List String} (h : ∀ n ∈ names, LeadsOn n) :
    parts ("/".intercalate names) = names := by
  by_cases hne : names = []
  · subst hne
    decide
  have hsplit := splitOn_intercalate hne fun n hn => (h n hn).noSlash
  have hrelative : ¬isAbsolute ("/".intercalate names) = true := fun habsolute => by
    obtain ⟨r, hr⟩ := isAbsolute_iff.1 habsolute
    rw [hr, splitOn_absolute] at hsplit
    exact (h "" (hsplit ▸ List.mem_cons_self)).ne_empty rfl
  have hdot : ¬(Text.splitOn '/' ("/".intercalate names)).head? = some "." := fun hdot => by
    rw [hsplit] at hdot
    exact (h "." (List.mem_of_head? hdot)).ne_dot rfl
  rw [parts, if_neg hrelative, if_neg hdot, components, hsplit]
  exact List.filter_eq_self.2 fun n hn => decide_eq_true ⟨(h n hn).ne_empty, (h n hn).ne_dot⟩

theorem parentParts?_intercalate {directory : List String} {file : String}
    (h : ∀ n ∈ directory ++ [file], LeadsOn n) :
    parentParts? ("/".intercalate (directory ++ [file])) = some directory := by
  have hfile : file ≠ "/" := by
    rintro rfl
    exact absurd (h "/" (by simp)).noSlash (by decide)
  unfold parentParts?
  rw [parts_intercalate h]
  split
  · next hnil => simp at hnil
  · next hroot => simp_all [List.append_eq_singleton_iff]
  · rw [List.dropLast_concat]

end Path

namespace Nextjs

/-! ## Layouts around a path -/

/-- The parts of the directory that holds the layout. -/
def Layout.directory (l : Layout) : List String :=
  (Path.parentParts? l.path).getD []

/-- The parts of the layout's directory are the first parts of the path. The root and the empty
path are in no directory. -/
structure Layout.Encloses (l : Layout) (path : String) : Prop where
  held : Path.parentParts? l.path ≠ none
  start : l.directory <+: Path.parts path

variable {l : Layout} {ls : List Layout} {path : String}

theorem Layout.enclosing?_eq_some_iff {d : List String} :
    l.enclosing? path = some d ↔ l.Encloses path ∧ l.directory = d := by
  rw [enclosing?, Option.filter_eq_some_iff, List.isPrefixOf_iff_prefix]
  constructor
  · rintro ⟨hd, hstart⟩
    have hdirectory : l.directory = d := by rw [directory, hd, Option.getD_some]
    exact ⟨⟨by simp [hd], hdirectory ▸ hstart⟩, hdirectory⟩
  · rintro ⟨⟨hheld, hstart⟩, rfl⟩
    obtain ⟨d, hd⟩ := Option.ne_none_iff_exists'.1 hheld
    have hdirectory : l.directory = d := by rw [directory, hd, Option.getD_some]
    exact ⟨hd.trans (congrArg some hdirectory.symm), hstart⟩

theorem Layout.enclosing?_of_encloses (h : l.Encloses path) :
    l.enclosing? path = some l.directory :=
  enclosing?_eq_some_iff.2 ⟨h, rfl⟩

theorem Layout.enclosing?_eq_none_iff : l.enclosing? path = none ↔ ¬l.Encloses path := by
  rw [Option.eq_none_iff_forall_ne_some]
  exact ⟨fun h hl => h _ (enclosing?_of_encloses hl),
    fun h d hd => h (enclosing?_eq_some_iff.1 hd).1⟩

/-- A layout in a directory along names encloses what lies along these names. -/
theorem Layout.encloses_iff {directory names : List String} {file : String}
    (hl : ∀ n ∈ directory ++ [file], Path.LeadsOn n) (hnames : ∀ n ∈ names, Path.LeadsOn n)
    (hpath : l.path = "/".intercalate (directory ++ [file])) :
    l.Encloses ("/".intercalate names) ↔ directory <+: names := by
  have hparent : Path.parentParts? l.path = some directory :=
    hpath ▸ Path.parentParts?_intercalate hl
  have hdirectory : l.directory = directory := by rw [Layout.directory, hparent, Option.getD_some]
  constructor
  · rintro ⟨-, hstart⟩
    rwa [hdirectory, Path.parts_intercalate hnames] at hstart
  · intro h
    refine ⟨by simp [hparent], ?_⟩
    rwa [hdirectory, Path.parts_intercalate hnames]

/-! ## The deepest layout -/

/-- The layout kept so far, with the depth of its directory, after one more layout. -/
def keepDeeper (path : String) (best : Option (ℕ × Layout)) (l : Layout) : Option (ℕ × Layout) :=
  match l.enclosing? path, best with
  | none, _ => best
  | some d, none => some (d.length, l)
  | some d, some (depth, l') => if depth ≤ d.length then some (d.length, l) else some (depth, l')

theorem deepestLayout?_eq (ls : List Layout) (path : String) :
    deepestLayout? ls path = (ls.foldl (keepDeeper path) none).map (·.2) :=
  rfl

/-- The layout encloses the path, none before it lies deeper, and all behind it lie less deep. -/
structure Deepest (ls : List Layout) (path : String) (l : Layout) : Prop where
  encloses : l.Encloses path
  place : ∃ before after, ls = before ++ l :: after ∧
    (∀ b ∈ before, b.Encloses path → b.directory.length ≤ l.directory.length) ∧
    ∀ b ∈ after, b.Encloses path → b.directory.length < l.directory.length

namespace Deepest

theorem mem (h : Deepest ls path l) : l ∈ ls := by
  obtain ⟨before, after, rfl, -⟩ := h.place
  simp

theorem length_le (h : Deepest ls path l) {b : Layout} (hb : b ∈ ls) (hpath : b.Encloses path) :
    b.directory.length ≤ l.directory.length := by
  obtain ⟨before, after, rfl, hbefore, hafter⟩ := h.place
  rcases List.mem_append.1 hb with hb | hb
  · exact hbefore b hb hpath
  · rcases List.mem_cons.1 hb with rfl | hb
    · exact le_rfl
    · exact (hafter b hb hpath).le

/-- One more layout that does not lie as deep leaves the deepest one. -/
theorem concat (h : Deepest ls path l) {b : Layout}
    (hb : b.Encloses path → b.directory.length < l.directory.length) :
    Deepest (ls ++ [b]) path l := by
  obtain ⟨before, after, rfl, hbefore, hafter⟩ := h.place
  refine ⟨h.encloses, before, after ++ [b], by simp, hbefore, ?_⟩
  exact List.forall_mem_append.2 ⟨hafter, List.forall_mem_singleton.2 hb⟩

/-- One more layout is the deepest one if none before it lies deeper. -/
theorem last (hl : l.Encloses path)
    (h : ∀ b ∈ ls, b.Encloses path → b.directory.length ≤ l.directory.length) :
    Deepest (ls ++ [l]) path l :=
  ⟨hl, ls, [], rfl, h, List.forall_mem_nil _⟩

end Deepest

/-- What is kept of some layouts is the deepest one around the path, or nothing without any. -/
def KeepsDeepest (ls : List Layout) (path : String) : Option (ℕ × Layout) → Prop
  | none => ∀ l ∈ ls, ¬l.Encloses path
  | some b => b.1 = b.2.directory.length ∧ Deepest ls path b.2

theorem KeepsDeepest.concat {best : Option (ℕ × Layout)} (h : KeepsDeepest ls path best)
    (l : Layout) : KeepsDeepest (ls ++ [l]) path (keepDeeper path best l) := by
  by_cases hl : l.Encloses path
  · have hd := Layout.enclosing?_of_encloses hl
    cases best with
    | none =>
      simp only [keepDeeper, hd]
      exact ⟨rfl, .last hl fun b hb hpath => absurd hpath (h b hb)⟩
    | some b =>
      obtain ⟨hb, h⟩ := h
      simp only [keepDeeper, hd]
      split_ifs with hdepth
      · rw [hb] at hdepth
        exact ⟨rfl, .last hl fun b hb hpath => (h.length_le hb hpath).trans hdepth⟩
      · rw [hb] at hdepth
        exact ⟨hb, h.concat fun _ => Nat.lt_of_not_le hdepth⟩
  · have hd := Layout.enclosing?_eq_none_iff.2 hl
    cases best with
    | none =>
      simp only [keepDeeper, hd]
      exact List.forall_mem_append.2 ⟨h, List.forall_mem_singleton.2 hl⟩
    | some b =>
      simp only [keepDeeper, hd]
      exact ⟨h.1, h.2.concat fun hpath => absurd hpath hl⟩

theorem keepsDeepest_foldl (ls : List Layout) (path : String) :
    KeepsDeepest ls path (ls.foldl (keepDeeper path) none) := by
  induction ls using List.reverseRecOn with
  | nil => exact List.forall_mem_nil _
  | append_singleton ls l ih =>
    rw [List.foldl_concat]
    exact ih.concat l

theorem deepest_of_deepestLayout? (h : deepestLayout? ls path = some l) : Deepest ls path l := by
  rw [deepestLayout?_eq, Option.map_eq_some_iff] at h
  obtain ⟨⟨depth, l'⟩, hbest, rfl⟩ := h
  have hkeeps := keepsDeepest_foldl ls path
  rw [hbest] at hkeeps
  exact hkeeps.2

theorem deepestLayout?_eq_none_iff :
    deepestLayout? ls path = none ↔ ∀ l ∈ ls, ¬l.Encloses path := by
  constructor
  · intro h
    rw [deepestLayout?_eq, Option.map_eq_none_iff] at h
    have hkeeps := keepsDeepest_foldl ls path
    rwa [h] at hkeeps
  · intro h
    by_contra hne
    obtain ⟨l, hl⟩ := Option.ne_none_iff_exists'.1 hne
    have hdeepest := deepest_of_deepestLayout? hl
    exact h l hdeepest.mem hdeepest.encloses

/-! ## Pages -/

/-- A page before and after it gets its layout. A page of the app router gets the path of a layout
around it, with none around it in a deeper directory, or no layout if there is none around it. -/
structure GetsLayout (ls : List Layout) (q q' : Page) : Prop where
  rest : q' = { q with layout := q'.layout }
  pages : q.router = .pages → q' = q
  nearest : q.router = .app → ∀ path, q'.layout = some path →
    ∃ l ∈ ls, l.path = path ∧ l.Encloses q.path ∧
      ∀ l' ∈ ls, l'.Encloses q.path → ¬l.directory.length < l'.directory.length
  none : q.router = .app → (q'.layout = none ↔ ∀ l ∈ ls, ¬l.Encloses q.path)

theorem assignLayout_of_pages {q : Page} (h : q.router = .pages) : assignLayout ls q = q := by
  simp [assignLayout, h]

theorem layout_assignLayout {q : Page} (h : q.router = .app) :
    (assignLayout ls q).layout = (deepestLayout? ls q.path).map (·.path) := by
  simp [assignLayout, h]

theorem getsLayout_assignLayout (ls : List Layout) (q : Page) :
    GetsLayout ls q (assignLayout ls q) where
  rest := by
    unfold assignLayout
    split <;> rfl
  pages := assignLayout_of_pages
  nearest h path hpath := by
    rw [layout_assignLayout h] at hpath
    obtain ⟨l, hl, rfl⟩ := Option.map_eq_some_iff.1 hpath
    have hdeepest := deepest_of_deepestLayout? hl
    exact ⟨l, hdeepest.mem, rfl, hdeepest.encloses,
      fun l' hl' hpath => Nat.not_lt.2 (hdeepest.length_le hl' hpath)⟩
  none h := by rw [layout_assignLayout h, Option.map_eq_none_iff, deepestLayout?_eq_none_iff]

/-- Each page of the app router gets the path of the deepest layout around it, and none just if no
layout encloses it; nothing else of the project changes. A layout encloses what lies in its
directory, name by name. -/
theorem Project.layouts_assigned (p : Project) :
    assignLayouts p = { p with pages := (assignLayouts p).pages } ∧
    List.Forall₂ (GetsLayout p.layouts) p.pages (assignLayouts p).pages ∧
    ∀ (l : Layout) (directory names : List String) (file : String),
      (∀ n ∈ directory ++ [file], Path.LeadsOn n) → (∀ n ∈ names, Path.LeadsOn n) →
      l.path = "/".intercalate (directory ++ [file]) →
      (l.Encloses ("/".intercalate names) ↔ directory <+: names) := by
  refine ⟨rfl, ?_, fun l directory names file => Layout.encloses_iff⟩
  rw [assignLayouts, List.forall₂_map_right_iff, List.forall₂_same]
  exact fun q _ => getsLayout_assignLayout p.layouts q

/-- Pages in two directories of which one name starts like the other. -/
def posts : Project where
  layouts := [{ path := "app/layout.tsx" }, { path := "app/post/layout.tsx" }]
  pages := [{ path := "app/post/page.tsx" }, { path := "app/posts/page.tsx" }]

theorem layouts_assigned_posts :
    (assignLayouts posts).pages.map (·.layout) =
      [some "app/post/layout.tsx", some "app/layout.tsx"] ∧
    Layout.Encloses { path := "app/post/layout.tsx" } "app/post/page.tsx" ∧
    ¬Layout.Encloses { path := "app/post/layout.tsx" } "app/posts/page.tsx" := by
  have hencloses := posts.layouts_assigned.2.2 { path := "app/post/layout.tsx" } ["app", "post"]
  refine ⟨by decide +kernel, ?_, ?_⟩
  · exact (hencloses ["app", "post", "page.tsx"] "layout.tsx" (by decide) (by decide) (by decide)).2
      (by decide)
  · exact mt (hencloses ["app", "posts", "page.tsx"] "layout.tsx" (by decide) (by decide)
      (by decide)).1 (by decide)

end Nextjs

end Atlas
