import Atlas.Proofs.Golang.Tree
import Atlas.Proofs.Text

/-!
# The drawing of a tree

A file is drawn like a directory without anything in it, so the lines below a directory are those of
its contents, the files before the directories (`contents`, `lines_columns`). A line has four columns
for every directory on the way to it, the corner, and the name. None of these columns is a corner, so
whatever the name is, a line tells where the corner stands (`line_inj`), and lines that come one
after another tell which of them stand in which directory (`childLines_append_inj`). So a tree in
which nothing but files is empty can be read off its drawing (`drawn_apart`).
-/

set_option linter.unusedSectionVars false

namespace Atlas.Golang.DirectoryNode

/-! ## Contents -/

/-- What stands in a directory : its files, each like a directory without anything in it, and then
its directories. -/
def contents (d : DirectoryNode) : List DirectoryNode := d.files.map empty ++ d.children

/-- Lists of directories have what is kept if one more directory is put in front of them whose
contents have it. -/
theorem contents_induction {motive : List DirectoryNode → Prop} (nil : motive [])
    (cons : ∀ d ds, motive d.contents → motive ds → motive (d :: ds))
    (ds : List DirectoryNode) : motive ds := by
  have hnode : ∀ d : DirectoryNode, motive d.contents := fun d =>
    d.rec (motive_1 := fun d => motive d.contents) (motive_2 := motive)
      (fun n cs fs hcs => by
        have hfiles : ∀ fs : List String, motive (fs.map empty ++ cs) := fun fs => by
          induction fs with
          | nil => exact hcs
          | cons f fs ih => exact cons (empty f) _ nil ih
        exact hfiles fs)
      nil (fun d ds hd hds => cons d ds hd hds)
  induction ds with
  | nil => exact nil
  | cons d ds ih => exact cons d ds (hnode d) ih

/-! ## Columns -/

/-- The columns below a directory on the way : a bar if another entry comes after it. -/
def column (isLast : Bool) : String := if isLast then "    " else "│   "

/-- The columns in front of a corner, for the directories on the way. -/
def columns (flags : List Bool) : String := String.join (flags.map column)

theorem length_column : ∀ b, (column b).toList.length = 4 := by decide

theorem length_corner : ∀ b, (corner b).toList.length = 4 := by decide

theorem toList_columns (flags : List Bool) :
    (columns flags).toList = flags.flatMap fun b => (column b).toList := by
  simp [columns, String.toList_join, List.flatMap_map]

theorem columns_append (flags : List Bool) (b : Bool) :
    columns (flags ++ [b]) = columns flags ++ column b := by
  rw [← String.toList_inj]
  simp [toList_columns]

theorem length_columns (flags : List Bool) : (columns flags).length = 4 * flags.length := by
  rw [← String.length_toList, toList_columns]
  simp [List.length_flatMap, length_column, Nat.mul_comm]

theorem columns_ne_empty {flags : List Bool} (h : flags ≠ []) : columns flags ≠ "" := by
  intro he
  have hlength := length_columns flags
  rw [he] at hlength
  have hzero : 4 * flags.length = 0 := hlength.symm
  exact h (List.eq_nil_of_length_eq_zero (by omega))

theorem mem_columns {flags : List Bool} {c : Char} (h : c ∈ (columns flags).toList) :
    c = ' ' ∨ c = '│' := by
  rw [toList_columns, List.mem_flatMap] at h
  obtain ⟨b, -, hb⟩ := h
  cases b <;> simp [column] at hb <;> tauto

/-- The line of an entry. -/
def line (flags : List Bool) (isLast : Bool) (name : String) : String :=
  columns flags ++ corner isLast ++ name

/-- A line tells its columns, its corner and its name. -/
theorem line_inj {flags flags' : List Bool} {b b' : Bool} {name name' : String}
    (h : line flags b name = line flags' b' name') : flags = flags' ∧ b = b' ∧ name = name' := by
  have hcolumns : ∀ b b', (column b).toList = (column b').toList → b = b' := by decide
  have hcorners : ∀ b b', (corner b).toList = (corner b').toList → b = b' := by decide
  have hapart : ∀ b b', (column b).toList ≠ (corner b').toList := by decide
  rw [line, line, ← String.toList_inj] at h
  simp only [String.toList_append, toList_columns, List.append_assoc] at h
  induction flags generalizing flags' with
  | nil =>
    rw [List.flatMap_nil, List.nil_append] at h
    cases flags' with
    | nil =>
      rw [List.flatMap_nil, List.nil_append] at h
      obtain ⟨hb, hname⟩ := List.append_inj h (by rw [length_corner, length_corner])
      exact ⟨rfl, hcorners _ _ hb, String.toList_inj.1 hname⟩
    | cons c flags' =>
      rw [List.flatMap_cons, List.append_assoc] at h
      exact absurd (List.append_inj h (by rw [length_corner, length_column])).1.symm (hapart _ _)
  | cons c flags ih =>
    rw [List.flatMap_cons, List.append_assoc] at h
    cases flags' with
    | nil =>
      rw [List.flatMap_nil, List.nil_append] at h
      exact absurd (List.append_inj h (by rw [length_corner, length_column])).1 (hapart _ _)
    | cons c' flags' =>
      rw [List.flatMap_cons, List.append_assoc] at h
      obtain ⟨hc, hrest⟩ := List.append_inj h (by rw [length_column, length_column])
      obtain ⟨hflags, hrest⟩ := ih hrest
      exact ⟨by rw [hcolumns _ _ hc, hflags], hrest⟩

/-! ## Lines -/

/-- The lines below a directory are those of its contents. -/
theorem fileLines_append {indent : String} (hindent : indent ≠ "") (fs : List String)
    (cs : List DirectoryNode) : fileLines indent cs.isEmpty fs ++ childLines indent cs =
      childLines indent (fs.map empty ++ cs) := by
  induction fs with
  | nil => rfl
  | cons f fs ih =>
    have hempty : (fs.map empty ++ cs).isEmpty = (fs.isEmpty && cs.isEmpty) := by
      cases fs <;> rfl
    have hfile : lines indent (fs.isEmpty && cs.isEmpty) (empty f) =
        [indent ++ corner (fs.isEmpty && cs.isEmpty) ++ f] := by
      simp [lines, empty, headLine, hindent, fileLines, childLines]
    rw [List.map_cons, List.cons_append, childLines, hempty, hfile, fileLines, List.cons_append,
      ih]
    rfl

theorem lines_columns {flags : List Bool} (h : flags ≠ []) (isLast : Bool) (d : DirectoryNode) :
    lines (columns flags) isLast d =
      line flags isLast d.name :: childLines (columns (flags ++ [isLast])) d.contents := by
  obtain ⟨name, cs, fs⟩ := d
  have hindent : childIndent (columns flags) isLast = columns (flags ++ [isLast]) := by
    rw [childIndent, if_neg (columns_ne_empty h), columns_append]
    cases isLast <;> rfl
  have hne : columns (flags ++ [isLast]) ≠ "" :=
    columns_ne_empty (List.append_ne_nil_of_right_ne_nil _ (List.cons_ne_nil _ _))
  rw [lines, hindent, headLine, if_neg (columns_ne_empty h)]
  exact congrArg _ (fileLines_append hne fs cs)

/-- The drawing of a tree from its root on. -/
theorem lines_root (isLast : Bool) (d : DirectoryNode) :
    lines "" isLast d = d.name :: childLines (columns [true]) d.contents := by
  obtain ⟨name, cs, fs⟩ := d
  have hindent : childIndent "" isLast = columns [true] := rfl
  rw [lines, hindent, headLine, if_pos rfl]
  exact congrArg _ (fileLines_append (columns_ne_empty (List.cons_ne_nil _ _)) fs cs)

theorem childLines_cons {flags : List Bool} (h : flags ≠ []) (d : DirectoryNode)
    (ds : List DirectoryNode) : childLines (columns flags) (d :: ds) =
      line flags ds.isEmpty d.name ::
        (childLines (columns (flags ++ [ds.isEmpty])) d.contents ++
          childLines (columns flags) ds) := by
  rw [childLines, lines_columns h, List.cons_append]

/-- Whether lines end, or go on with an entry that has at most so many directories on its way. -/
def GoesUp (n : ℕ) (ls : List String) : Prop :=
  ∀ l ∈ ls.head?, ∃ flags b name, flags.length ≤ n ∧ l = line flags b name

theorem GoesUp.mono {m n : ℕ} {ls : List String} (h : GoesUp m ls) (hmn : m ≤ n) : GoesUp n ls :=
  fun l hl =>
    let ⟨flags, b, name, hlength, hline⟩ := h l hl
    ⟨flags, b, name, Nat.le_trans hlength hmn, hline⟩

theorem goesUp_childLines {flags : List Bool} (h : flags ≠ []) (ds : List DirectoryNode)
    {ls : List String} (hls : GoesUp flags.length ls) :
    GoesUp flags.length (childLines (columns flags) ds ++ ls) := by
  cases ds with
  | nil => exact hls
  | cons d ds =>
    rw [childLines_cons h, List.cons_append]
    intro l hl
    exact ⟨flags, ds.isEmpty, d.name, Nat.le_refl _, (Option.some.inj hl).symm⟩

theorem GoesUp.ne_line {n : ℕ} {ls ms : List String} {flags : List Bool} {b : Bool} {name : String}
    (hls : GoesUp n ls) (hn : n < flags.length) : ls ≠ line flags b name :: ms := by
  rintro rfl
  obtain ⟨flags', b', name', hlength, hl⟩ := hls _ rfl
  rw [(line_inj hl).1] at hn
  exact Nat.lt_irrefl _ (Nat.lt_of_lt_of_le hn hlength)

/-! ## Reading a drawing -/

/-- Whether nothing but files is empty among the directories below one. -/
def Filled (d : DirectoryNode) : Prop :=
  ∀ path e, d.Leads path e → path ≠ [] → e.files ≠ [] ∨ e.children ≠ []

theorem Filled.of_mem_contents {d c : DirectoryNode} (h : d.Filled) (hc : c ∈ d.contents) :
    c.Filled := by
  rcases List.mem_append.1 hc with hc | hc
  · obtain ⟨f, -, rfl⟩ := List.mem_map.1 hc
    rintro path e ⟨⟩ hpath
    · exact absurd rfl hpath
    · exact absurd ‹_› List.not_mem_nil
  · exact fun _ _ he _ => h _ _ (.down hc he) (List.cons_ne_nil _ _)

/-- The files are what is empty among the contents. -/
theorem Filled.filter_contents {d : DirectoryNode} (h : d.Filled) :
    d.contents.filter (·.contents.isEmpty) = d.files.map empty ∧
      d.contents.filter (!·.contents.isEmpty) = d.children := by
  have hfile : ∀ c ∈ d.files.map empty, c.contents.isEmpty = true :=
    List.forall_mem_map.2 fun _ _ => rfl
  have hchild : ∀ c ∈ d.children, c.contents.isEmpty = false := fun c hc => by
    have hne := h _ _ (.down hc (.here c)) (List.cons_ne_nil _ _)
    simpa [contents, ← not_and_or] using hne
  rw [contents, List.filter_append, List.filter_append, List.filter_eq_self.2 hfile,
    List.filter_eq_nil_iff.2 fun c hc => by simp [hchild c hc],
    List.filter_eq_nil_iff.2 fun c hc => by simp [hfile c hc],
    List.filter_eq_self.2 fun c hc => by simp [hchild c hc]]
  exact ⟨List.append_nil _, List.nil_append _⟩

/-- A directory below which nothing but files is empty is told by its name and its contents. -/
theorem Filled.eq_of_contents {d e : DirectoryNode} (hd : d.Filled) (he : e.Filled)
    (hname : d.name = e.name) (hcontents : d.contents = e.contents) : d = e := by
  obtain ⟨hdfiles, hdchildren⟩ := hd.filter_contents
  obtain ⟨hefiles, hechildren⟩ := he.filter_contents
  have hempty : Function.Injective empty := fun f f' h => congrArg name h
  have hfiles : d.files = e.files :=
    List.map_injective_iff.2 hempty (by rw [← hdfiles, ← hefiles, hcontents])
  have hchildren : d.children = e.children := by rw [← hdchildren, ← hechildren, hcontents]
  obtain ⟨n, cs, fs⟩ := d
  obtain ⟨n', cs', fs'⟩ := e
  cases hname
  cases hfiles
  cases hchildren
  rfl

/-- Lines that go on with nothing as deep tell what they draw and where that ends. -/
theorem childLines_append_inj {ds es : List DirectoryNode} (hds : ∀ d ∈ ds, d.Filled)
    (hes : ∀ e ∈ es, e.Filled) {n : ℕ} {flags : List Bool} (hflags : flags.length = n + 1)
    {ls ms : List String} (hls : GoesUp n ls) (hms : GoesUp n ms)
    (h : childLines (columns flags) ds ++ ls = childLines (columns flags) es ++ ms) :
    ds = es ∧ ls = ms := by
  induction ds using contents_induction generalizing es n flags ls ms with
  | nil =>
    cases es with
    | nil => exact ⟨rfl, h⟩
    | cons e es =>
      rw [childLines_cons (List.ne_nil_of_length_eq_add_one hflags)] at h
      exact absurd h (hls.ne_line (by omega))
  | cons d ds ihd ihds =>
    have hne : flags ≠ [] := List.ne_nil_of_length_eq_add_one hflags
    cases es with
    | nil =>
      rw [childLines_cons hne] at h
      exact absurd h.symm (hms.ne_line (by omega))
    | cons e es =>
      obtain ⟨hd, hds⟩ := List.forall_mem_cons.1 hds
      obtain ⟨he, hes⟩ := List.forall_mem_cons.1 hes
      have hup : ∀ {ds ls}, GoesUp n ls → GoesUp (n + 1) (childLines (columns flags) ds ++ ls) :=
        fun hls => hflags ▸ goesUp_childLines hne _ (hls.mono (by omega))
      rw [childLines_cons hne, childLines_cons hne, List.cons_append, List.cons_append,
        List.append_assoc, List.append_assoc] at h
      obtain ⟨hline, hrest⟩ := List.cons.inj h
      obtain ⟨-, hlast, hname⟩ := line_inj hline
      rw [← hlast] at hrest
      -- What comes behind the contents of `d` stands no deeper than `d` itself.
      obtain ⟨hcontents, hrest⟩ := ihd (fun c => hd.of_mem_contents) (fun c => he.of_mem_contents)
        (by rw [List.length_append, hflags]; rfl) (hup hls) (hup hms) hrest
      obtain ⟨htail, hend⟩ := ihds hds hes hflags hls hms hrest
      exact ⟨by rw [hd.eq_of_contents he hname hcontents, htail], hend⟩

/-! ## Positions -/

/-- An entry of a tree : how many directories stand on the way to it, the root among them, its place
among its siblings, how many siblings there are with it, and its name. -/
structure Position where
  level : ℕ
  place : ℕ
  siblings : ℕ
  name : String

mutual

/-- The entries below a directory : its files, and then its directories, each before what is below
it. -/
def positions (level : ℕ) : DirectoryNode → List Position
  | mk _ children files =>
    let siblings := files.length + children.length
    files.mapIdx (fun i f => ⟨level, i, siblings, f⟩) ++
      positionsAmong level siblings files.length children

/-- Directories from a place among their siblings on, each before what is below it. -/
def positionsAmong (level siblings place : ℕ) : List DirectoryNode → List Position
  | [] => []
  | d :: ds =>
    ⟨level, place, siblings, d.name⟩ ::
      (positions (level + 1) d ++ positionsAmong level siblings (place + 1) ds)

end

/-- Whether a line shows an entry : behind four columns for each directory on the way a corner, which
turns for the last one of the siblings and goes on for the others, and the name. -/
def Shows (p : Position) (line : String) : Prop :=
  ∃ indent : String, indent.length = 4 * p.level ∧ (∀ c ∈ indent.toList, c = ' ' ∨ c = '│') ∧
    line = indent ++ (if p.place + 1 = p.siblings then "└── " else "├── ") ++ p.name

/-- A file stands where a directory without anything in it would stand. -/
theorem positions_eq (level : ℕ) (d : DirectoryNode) :
    positions level d = positionsAmong level d.contents.length 0 d.contents := by
  obtain ⟨n, cs, fs⟩ := d
  have hfiles : ∀ (siblings place : ℕ) (fs : List String),
      fs.mapIdx (fun i f => (⟨level, place + i, siblings, f⟩ : Position)) ++
        positionsAmong level siblings (place + fs.length) cs =
      positionsAmong level siblings place (fs.map empty ++ cs) := by
    intro siblings place fs
    induction fs generalizing place with
    | nil => rfl
    | cons f fs ih =>
      have hempty : positions (level + 1) (empty f) = [] := rfl
      rw [List.map_cons, List.cons_append, positionsAmong, hempty, List.nil_append, ← ih (place + 1)]
      simp [Nat.add_assoc, Nat.add_comm 1, empty, name]
  have hcontents : contents (mk n cs fs) = fs.map empty ++ cs := rfl
  rw [hcontents, List.length_append, List.length_map]
  simpa [positions] using hfiles (fs.length + cs.length) 0 fs

/-- The lines of directories show them and what is below them, in this order. -/
theorem forall₂_shows {ds : List DirectoryNode} {flags : List Bool} (hflags : flags ≠ [])
    {siblings place : ℕ} (hsiblings : place + ds.length = siblings) :
    List.Forall₂ Shows (positionsAmong flags.length siblings place ds)
      (childLines (columns flags) ds) := by
  induction ds using contents_induction generalizing flags siblings place with
  | nil => exact .nil
  | cons d ds ihd ihds =>
    rw [List.length_cons] at hsiblings
    have hlast : (ds.isEmpty = true) = (place + 1 = siblings) := by
      rw [List.isEmpty_iff_length_eq_zero, eq_iff_iff]
      omega
    have hflags' : flags ++ [ds.isEmpty] ≠ [] :=
      List.append_ne_nil_of_right_ne_nil _ (List.cons_ne_nil _ _)
    have hbelow := ihd hflags' (Nat.zero_add _)
    rw [List.length_append] at hbelow
    have hrest : List.Forall₂ Shows (positionsAmong flags.length siblings (place + 1) ds) _ :=
      ihds hflags (by omega)
    rw [childLines_cons hflags, positionsAmong, positions_eq]
    refine .cons ⟨columns flags, length_columns flags, fun c => mem_columns, ?_⟩
      (List.rel_append hbelow hrest)
    rw [line, corner]
    simp only [hlast]

theorem feed_notMem_line {flags : List Bool} {b : Bool} {name : String} (h : '\n' ∉ name.toList) :
    '\n' ∉ (line flags b name).toList := by
  rw [line, String.toList_append, String.toList_append, List.mem_append, List.mem_append]
  rintro ((hc | hc) | hc)
  · rcases mem_columns hc with hc | hc <;> cases hc
  · cases b <;> simp [corner] at hc
  · exact h hc

/-- Whether no name in a tree has a line break. -/
def OneLined (d : DirectoryNode) : Prop :=
  ∀ path e, d.Leads path e → '\n' ∉ e.name.toList ∧ ∀ f ∈ e.files, '\n' ∉ f.toList

theorem OneLined.of_mem_contents {d c : DirectoryNode} (h : d.OneLined) (hc : c ∈ d.contents) :
    c.OneLined := by
  rcases List.mem_append.1 hc with hc | hc
  · obtain ⟨f, hf, rfl⟩ := List.mem_map.1 hc
    rintro path e ⟨⟩
    · exact ⟨(h _ _ (.here d)).2 f hf, nofun⟩
    · exact absurd ‹_› List.not_mem_nil
  · exact fun _ _ he => h _ _ (.down hc he)

theorem feed_notMem_childLines {ds : List DirectoryNode} (hds : ∀ d ∈ ds, d.OneLined)
    {flags : List Bool} (hflags : flags ≠ []) :
    ∀ l ∈ childLines (columns flags) ds, '\n' ∉ l.toList := by
  induction ds using contents_induction generalizing flags with
  | nil => exact nofun
  | cons d ds ihd ihds =>
    obtain ⟨hd, hds⟩ := List.forall_mem_cons.1 hds
    rw [childLines_cons hflags]
    refine List.forall_mem_cons.2 ⟨feed_notMem_line (hd _ _ (.here d)).1, List.forall_mem_append.2
      ⟨ihd (fun c => hd.of_mem_contents) ?_, ihds hds hflags⟩⟩
    exact List.append_ne_nil_of_right_ne_nil _ (List.cons_ne_nil _ _)

theorem OneLined.feed_notMem_lines {d : DirectoryNode} (h : d.OneLined) (isLast : Bool) :
    ∀ l ∈ lines "" isLast d, '\n' ∉ l.toList := by
  rw [lines_root]
  exact List.forall_mem_cons.2 ⟨(h _ _ (.here d)).1,
    feed_notMem_childLines (fun c => h.of_mem_contents) (List.cons_ne_nil _ _)⟩

/-- The drawing of a tree whose names have no line breaks has the name of the root on its first line
and then one line for every entry, in this order, with four columns for each directory on the way and
a corner that turns just for the last of the siblings. Of the trees in which nothing but the root and
files is empty no other has the same drawing. -/
theorem drawn_apart (d : DirectoryNode) (isLast : Bool) (h : d.OneLined) :
    (∃ ls, Text.splitOn '\n' (Text.unlines (lines "" isLast d)) = d.name :: (ls ++ [""]) ∧
        List.Forall₂ Shows (positions 1 d) ls) ∧
      ∀ (e : DirectoryNode) (isLast' : Bool), e.OneLined → d.Filled → e.Filled →
        Text.unlines (lines "" isLast d) = Text.unlines (lines "" isLast' e) → d = e := by
  have hflags : [true] ≠ [] := List.cons_ne_nil _ _
  constructor
  · refine ⟨childLines (columns [true]) d.contents, ?_, ?_⟩
    · rw [Text.splitOn_unlines (h.feed_notMem_lines isLast), lines_root, List.cons_append]
    · rw [positions_eq]
      exact forall₂_shows hflags (Nat.zero_add _)
  · intro e isLast' he hd hfilled heq
    rw [Text.unlines_inj (h.feed_notMem_lines isLast) (he.feed_notMem_lines isLast'), lines_root,
      lines_root] at heq
    obtain ⟨hname, hlines⟩ := List.cons.inj heq
    have hends : GoesUp 0 [] := nofun
    have hcontents := childLines_append_inj (fun c => hd.of_mem_contents)
      (fun c => hfilled.of_mem_contents) (n := 0) rfl hends hends (by simpa using hlines)
    exact hd.eq_of_contents hfilled hname hcontents.1

/-! ### A tree with corners in its names -/

theorem oneLined_iff {d : DirectoryNode} : d.OneLined ↔ ('\n' ∉ d.name.toList ∧
    ∀ f ∈ d.files, '\n' ∉ f.toList) ∧ ∀ c ∈ d.children, c.OneLined := by
  constructor
  · exact fun h => ⟨h _ _ (.here d), fun c hc _ _ he => h _ _ (.down hc he)⟩
  · rintro ⟨hd, hc⟩ path e (⟨⟩ | ⟨hmem, he⟩)
    · exact hd
    · exact hc _ hmem _ _ he

theorem filled_iff {d : DirectoryNode} :
    d.Filled ↔ ∀ c ∈ d.children, (c.files ≠ [] ∨ c.children ≠ []) ∧ c.Filled := by
  constructor
  · exact fun h c hc => ⟨h _ _ (.down hc (.here c)) (List.cons_ne_nil _ _),
      fun _ _ he _ => h _ _ (.down hc he) (List.cons_ne_nil _ _)⟩
  · rintro h path e (⟨⟩ | ⟨hmem, he⟩) hpath
    · exact absurd rfl hpath
    · obtain ⟨hc, hfilled⟩ := h _ hmem
      cases he with
      | here => exact hc
      | down hmem he => exact hfilled _ _ (.down hmem he) (List.cons_ne_nil _ _)

/-- A tree with a directory and a file that are named like lines of a drawing. -/
def cornered : DirectoryNode :=
  mk "app" [mk "└── pkg" [] ["│   └── store.go"]] ["main.go"]

/-- A tree with the same names, all of them those of files. -/
def uncornered : DirectoryNode :=
  mk "app" [] ["main.go", "└── pkg", "│   └── store.go"]

theorem drawn_apart_cornered :
    cornered.OneLined ∧ cornered.Filled ∧ uncornered.OneLined ∧ uncornered.Filled ∧
      (∃ ls, Text.splitOn '\n' cornered.drawing = "app" :: (ls ++ [""]) ∧
        List.Forall₂ Shows [⟨1, 0, 2, "main.go"⟩, ⟨1, 1, 2, "└── pkg"⟩, ⟨2, 0, 1, "│   └── store.go"⟩]
          ls) ∧
      cornered.drawing ≠ uncornered.drawing := by
  have hpkg : (mk "└── pkg" [] ["│   └── store.go"]).OneLined :=
    oneLined_iff.2 ⟨by decide, List.forall_mem_nil _⟩
  have hc : cornered.OneLined := oneLined_iff.2 ⟨by decide, List.forall_mem_singleton.2 hpkg⟩
  have hu : uncornered.OneLined := oneLined_iff.2 ⟨by decide, List.forall_mem_nil _⟩
  have hcf : cornered.Filled := filled_iff.2 (List.forall_mem_singleton.2
    ⟨Or.inl (List.cons_ne_nil _ _), filled_iff.2 (List.forall_mem_nil _)⟩)
  have huf : uncornered.Filled := filled_iff.2 (List.forall_mem_nil _)
  obtain ⟨hlines, hapart⟩ := drawn_apart cornered true hc
  exact ⟨hc, hcf, hu, huf, hlines, fun h =>
    absurd (congrArg children (hapart uncornered true hu hcf huf h)) (List.cons_ne_nil _ _)⟩

end Atlas.Golang.DirectoryNode
