import Atlas.Proofs.Files.Clean
import Atlas.Proofs.Files.Tree

/-!
# Files written into one directory

A file that is written into a directory is found there afterwards (`get?_of_write`), and files of
other names in the same directory are found as before (`get?_of_write_of_ne`). So after several
files are written one after another, each name holds what was written under it last
(`get?_of_writeEach`). A write keeps the order of an ordered file tree (`ordered_write`).
-/

set_option linter.unusedSectionVars false

namespace Atlas

open FileTree

/-! ## Names at the end of a path -/

/-- A name that leads from a directory to one of its entries. -/
structure IsName (name : String) : Prop where
  noSlash : '/' ∉ name.toList
  ne_empty : name ≠ ""
  ne_dot : name ≠ "."
  ne_dots : name ≠ ".."

namespace Path

/-- The parts of a path before the name that is put below a directory. -/
def leading (directory : String) : List String :=
  if directory = "" then []
  else if Text.endsWith "/" directory then (Text.splitOn '/' directory).dropLast
  else Text.splitOn '/' directory

theorem isAbsolute_name {name : String} (h : '/' ∉ name.toList) : isAbsolute name = false := by
  rw [isAbsolute, Text.startsWith, Chars.startsWith]
  cases hs : name.toList with
  | nil => rfl
  | cons c r =>
    rw [hs, List.mem_cons, not_or] at h
    simpa [List.isPrefixOf] using h.1

/-- A path below a directory is the directory, a slash where it has none at its end, and the name.
-/
theorem join_eq {directory name : String} (h : '/' ∉ name.toList) (hd : directory ≠ "") :
    join directory name = if Text.endsWith "/" directory then directory ++ name
      else directory ++ "/" ++ name := by
  rw [join, isAbsolute_name h, if_neg Bool.false_ne_true, if_neg hd]

theorem splitOn_join {name : String} (h : '/' ∉ name.toList) (directory : String) :
    Text.splitOn '/' (join directory name) = leading directory ++ [name] := by
  by_cases hd : directory = ""
  · subst hd
    rw [join, isAbsolute_name h]
    exact splitOn_name h
  · rw [join_eq h hd, leading, if_neg hd]
    split_ifs with he
    · obtain ⟨d, hd⟩ : ['/'] <:+ directory.toList := List.isSuffixOf_iff_suffix.1 he
      obtain rfl : directory = String.ofList d ++ "/" := String.toList_inj.1 (by simp [← hd])
      have hdir := splitOn_append (String.ofList d) ""
      rw [String.append_empty] at hdir
      rw [splitOn_append, splitOn_name h, hdir]
      exact congrArg (· ++ [name]) List.dropLast_concat.symm
    · rw [splitOn_append, splitOn_name h]

theorem isAbsolute_join {name : String} (h : '/' ∉ name.toList) (directory : String) :
    isAbsolute (join directory name) = isAbsolute directory := by
  by_cases hd : directory = ""
  · subst hd
    rw [join, isAbsolute_name h]
    exact isAbsolute_name h
  · obtain ⟨c, r, hc⟩ := List.exists_cons_of_ne_nil fun he => hd (String.toList_inj.1 he)
    have happ : ∀ s, isAbsolute (directory ++ s) = isAbsolute directory := fun s => by
      simp [isAbsolute, Text.startsWith, Chars.startsWith, hc, List.isPrefixOf]
    rw [join_eq h hd]
    split_ifs
    · exact happ _
    · rw [String.append_assoc, happ]

end Path

namespace FileSystem

/-! ## Following paths in a changed tree -/

section Follow

variable {root root' : FileTree} {here there : List String}

/-- A name leads on from a directory. -/
theorem step_name {name : String} (hn : IsName name) : step root here name = .ok there ↔
    (∃ es, root.at? here.reverse = some (.directory es)) ∧ name.utf8ByteSize ≤ maxNameSize ∧
      there = name :: here := by
  rw [step]
  cases root.at? here.reverse with
  | none => simp
  | some t =>
    cases t with
    | file content => simp
    | directory es =>
      simp only [hn.ne_empty, hn.ne_dot, hn.ne_dots, or_self, if_false, Option.some.injEq,
        FileTree.directory.injEq, exists_eq', true_and]
      split_ifs with h
      · exact ⟨fun h' => (by cases h'), fun h' => absurd h (Nat.not_lt.2 h'.1)⟩
      · rw [Except.ok.injEq, eq_comm]
        exact (and_iff_right (Nat.not_lt.1 h)).symm

variable (hdir : ∀ names es, root.at? names = some (.directory es) →
  ∃ es', root'.at? names = some (.directory es'))

include hdir

theorem step_of_directories {part : String} (h : step root here part = .ok there) :
    step root' here part = .ok there := by
  rw [step] at h ⊢
  cases ht : root.at? here.reverse with
  | none => simp [ht] at h
  | some t =>
    cases t with
    | file content => simp [ht] at h
    | directory es =>
      obtain ⟨es', he⟩ := hdir _ _ ht
      rw [ht] at h
      rw [he]
      exact h

/-- Where all directories stay directories, paths lead where they led. -/
theorem follow_of_directories {parts : List String} (h : follow root here parts = .ok there) :
    follow root' here parts = .ok there := by
  induction parts generalizing here with
  | nil => exact h
  | cons part parts ih =>
    rw [follow, List.foldlM_cons] at h ⊢
    obtain ⟨next, hnext, h⟩ := bind_eq_ok_iff.1 h
    exact bind_eq_ok_iff.2 ⟨next, step_of_directories hdir hnext, ih h⟩

end Follow

/-- The names on the way to a directory that is to hold files lead there, the last one first. -/
def LeadsTo (fs : FileSystem) (directory : String) (here : List String) : Prop :=
  follow fs.root (fs.start directory) (Path.leading directory) = .ok here

variable {fs fs' : FileSystem} {directory name text : String}

theorem follow_join (hn : IsName name) {there : List String} :
    follow fs.root (fs.start (Path.join directory name))
        (Text.splitOn '/' (Path.join directory name)) = .ok there ↔
      ∃ here, fs.LeadsTo directory here ∧ step fs.root here name = .ok there := by
  rw [start, Path.isAbsolute_join hn.noSlash, Path.splitOn_join hn.noSlash, follow,
    List.foldlM_append, bind_eq_ok_iff]
  exact exists_congr fun here => and_congr_right fun _ => by
    rw [List.foldlM_cons, bind_eq_ok_iff]
    exact ⟨fun ⟨_, h, hp⟩ => (Except.ok.inj hp) ▸ h, fun h => ⟨_, h, rfl⟩⟩

/-- What stands at a path below a directory is the entry of that name. -/
theorem get?_join (hn : IsName name) {t : FileTree} :
    fs.get? (Path.join directory name) = some t ↔
      pathFault? (Path.join directory name) = none ∧ name.utf8ByteSize ≤ maxNameSize ∧
        ∃ here, fs.LeadsTo directory here ∧ fs.root.at? (here.reverse ++ [name]) = some t := by
  rw [get?_eq_some_iff]
  simp only [follow_join hn, step_name hn]
  constructor
  · rintro ⟨hp, _, ⟨here, hl, -, hs, rfl⟩, ht⟩
    exact ⟨hp, hs, here, hl, List.reverse_cons ▸ ht⟩
  · rintro ⟨hp, hs, here, hl, ht⟩
    refine ⟨hp, _, ⟨here, hl, ?_, hs, rfl⟩, List.reverse_cons.symm ▸ ht⟩
    rw [at?_append] at ht
    obtain ⟨d, hd, ht⟩ := Option.bind_eq_some_iff.1 ht
    cases d with
    | file content => simp [at?_file] at ht
    | directory es => exact ⟨es, hd⟩

/-! ## Writing -/

theorem place_eq_ok_iff {t : FileTree} {here : List String} : fs.place t here = .ok fs' ↔
    ∃ root', FileTree.insert? t here.reverse fs.root = some root' ∧
      fs' = { fs with root := root' } := by
  rw [place]
  cases FileTree.insert? t here.reverse fs.root with
  | none => simp
  | some root' => simp [eq_comm]

/-- What a successful write has done. -/
theorem of_write_eq_ok {path : String} (h : fs.write path text = .ok fs') :
    pathFault? path = none ∧ ∃ name before here there,
      (Text.splitOn '/' path).reverse.dropWhile (· = "") = name :: before ∧
      follow fs.root (fs.start path) before.reverse = .ok here ∧
      step fs.root here name = .ok there ∧
      (∀ es, fs.root.at? there.reverse ≠ some (.directory es)) ∧
      fs.place (.ofText text) there = .ok fs' := by
  rw [write] at h
  cases hp : pathFault? path with
  | some fault => simp [hp, throw, throwThe, MonadExceptOf.throw, bind, Except.bind] at h
  | none =>
    simp only [hp] at h
    split at h
    · cases h
    · next name before hname =>
      obtain ⟨here, hhere, h⟩ := bind_eq_ok_iff.1 h
      obtain ⟨there, hthere, h⟩ := bind_eq_ok_iff.1 h
      split at h
      · cases h
      · split at h
        · cases h
        · next hfile => exact ⟨rfl, name, before, here, there, hname, hhere, hthere, hfile, h⟩

/-- An ordered file tree stays ordered when a file is written. -/
theorem ordered_write {path : String} (hfs : fs.root.Ordered)
    (h : fs.write path text = .ok fs') : fs'.root.Ordered := by
  obtain ⟨-, _, _, _, _, -, -, -, -, h⟩ := of_write_eq_ok h
  obtain ⟨root', hroot, rfl⟩ := place_eq_ok_iff.1 h
  exact hfs.insert? (.file _) hroot

/-- What a successful write into a directory has done. -/
theorem write_join (hn : IsName name) (h : fs.write (Path.join directory name) text = .ok fs') :
    pathFault? (Path.join directory name) = none ∧ name.utf8ByteSize ≤ maxNameSize ∧
      ∃ here root', fs.LeadsTo directory here ∧
        (∀ es, fs.root.at? (here.reverse ++ [name]) ≠ some (.directory es)) ∧
        FileTree.insert? (.ofText text) (here.reverse ++ [name]) fs.root = some root' ∧
        fs' = { fs with root := root' } := by
  obtain ⟨hp, name', before, here, there, hparts, hl, hs, hfile, h⟩ := of_write_eq_ok h
  have hname : (decide (name = "")) = false := by simpa using hn.ne_empty
  rw [Path.splitOn_join hn.noSlash, List.reverse_append, List.reverse_singleton,
    List.singleton_append, List.dropWhile_cons, hname, if_neg Bool.false_ne_true] at hparts
  obtain ⟨rfl, rfl⟩ := List.cons.inj hparts
  rw [start, Path.isAbsolute_join hn.noSlash, List.reverse_reverse] at hl
  obtain ⟨-, hsize, rfl⟩ := (step_name hn).1 hs
  obtain ⟨root', hroot, rfl⟩ := place_eq_ok_iff.1 h
  rw [List.reverse_cons] at hfile hroot
  exact ⟨hp, hsize, here, root', hl, hfile, hroot, rfl⟩

/-- A file is found where it was written. -/
theorem get?_of_write (hn : IsName name)
    (h : fs.write (Path.join directory name) text = .ok fs') :
    fs'.get? (Path.join directory name) = some (.ofText text) := by
  obtain ⟨hp, hs, here, root', hl, hfile, hroot, rfl⟩ := write_join hn h
  have hl' : LeadsTo { fs with root := root' } directory here :=
    follow_of_directories (fun _ _ => exists_directory_insert? hroot hfile) hl
  exact (get?_join hn).2 ⟨hp, hs, here, hl', at?_insert? hroot⟩

/-- A write into a directory leaves what stands there under other names. -/
theorem get?_of_write_of_ne {other : String} (hn : IsName name) (ho : IsName other)
    (hne : other ≠ name) (h : fs.write (Path.join directory name) text = .ok fs') :
    fs'.get? (Path.join directory other) = fs.get? (Path.join directory other) := by
  obtain ⟨-, -, here, root', hl, hfile, hroot, rfl⟩ := write_join hn h
  have hl' : LeadsTo { fs with root := root' } directory here :=
    follow_of_directories (fun _ _ => exists_directory_insert? hroot hfile) hl
  have hat : root'.at? (here.reverse ++ [other]) = fs.root.at? (here.reverse ++ [other]) := by
    refine at?_insert?_of_not_prefix hroot (fun hp => hne ?_) fun hp => hne ?_
    · exact (List.cons_prefix_cons.1 ((List.prefix_append_right_inj _).1 hp)).1.symm
    · exact (List.cons_prefix_cons.1 ((List.prefix_append_right_inj _).1 hp)).1
  ext t
  rw [get?_join ho, get?_join ho]
  refine and_congr_right fun _ => and_congr_right fun _ => ⟨?_, ?_⟩
  · rintro ⟨here', hl'', ht⟩
    obtain rfl := Except.ok.inj (hl'.symm.trans hl'')
    exact ⟨_, hl, hat ▸ ht⟩
  · rintro ⟨here', hl'', ht⟩
    obtain rfl := Except.ok.inj (hl.symm.trans hl'')
    exact ⟨_, hl', hat.symm ▸ ht⟩

end FileSystem

/-! ## Actions -/

namespace FileAction

variable {α β : Type} {fs fs' : FileSystem}

theorem runOn_pure (a : α) (fs : FileSystem) : runOn (pure a) fs = (.ok a, fs) :=
  rfl

theorem runOn_bind (a : FileAction α) (f : α → FileAction β) (fs : FileSystem) :
    runOn (a >>= f) fs = match runOn a fs with
      | (.ok x, fs') => runOn (f x) fs'
      | (.error e, fs') => (.error e, fs') := by
  simp only [runOn, ExceptT.run_bind, StateT.run_bind]
  rcases (StateT.run (ExceptT.run a) fs : Id (Except Error α × FileSystem)) with ⟨e | x, fs'⟩ <;>
    rfl

/-- Two actions in turn succeed if each does. -/
theorem runOn_bind_eq_ok_iff {a : FileAction α} {f : α → FileAction β} {b : β} :
    runOn (a >>= f) fs = (.ok b, fs') ↔
      ∃ x next, runOn a fs = (.ok x, next) ∧ runOn (f x) next = (.ok b, fs') := by
  rw [runOn_bind]
  rcases runOn a fs with ⟨e | x, next⟩
  · simp
  · simp

theorem exists_of_isOk {a : FileAction α} (h : (runOn a fs).1.isOk = true) :
    ∃ x fs', runOn a fs = (.ok x, fs') := by
  rcases hr : runOn a fs with ⟨e | x, fs'⟩
  · rw [hr] at h
    cases h
  · exact ⟨x, fs', rfl⟩

theorem runOn_ofResult (r : Result α) (fs : FileSystem) : runOn (ofResult r) fs = (r, fs) := by
  cases r <;> rfl

/-- Reading changes nothing. -/
theorem runOn_reading (f : FileSystem → Except FileFault α) (fs : FileSystem) :
    runOn (reading f) fs = ((f fs).mapError FileFault.toError, fs) := by
  have hget : runOn (get : FileAction FileSystem) fs = (.ok fs, fs) := rfl
  rw [reading, runOn_bind, hget]
  dsimp only
  cases f fs <;> rfl

/-- A change that fails changes nothing. -/
theorem runOn_changing (f : FileSystem → Except FileFault FileSystem) (fs : FileSystem) :
    runOn (changing f) fs = match f fs with
      | .ok fs' => (.ok (), fs')
      | .error fault => (.error fault.toError, fs) := by
  rw [changing, runOn_bind, runOn_reading]
  cases f fs <;> rfl

theorem runOn_changing_eq_ok_iff {f : FileSystem → Except FileFault FileSystem} {u : Unit} :
    runOn (changing f) fs = (.ok u, fs') ↔ f fs = .ok fs' := by
  rw [runOn_changing]
  cases f fs <;> simp

/-! ## Several files in one directory -/

section Several

variable {α : Type} (directory : String) (name text : α → String)

/-- Writes a file for each of some things into a directory. Gives the paths of the files. -/
def writeEach (l : List α) : FileAction (List String) :=
  l.mapM fun a => do
    FileAction.write (Path.join directory (name a)) (text a)
    return Path.join directory (name a)

variable {directory name text} {l : List α} {paths : List String}

theorem writeEach_cons_eq_ok_iff {a : α} :
    runOn (writeEach directory name text (a :: l)) fs = (.ok paths, fs') ↔
      ∃ next rest, fs.write (Path.join directory (name a)) (text a) = .ok next ∧
        runOn (writeEach directory name text l) next = (.ok rest, fs') ∧
        paths = Path.join directory (name a) :: rest := by
  rw [writeEach, List.mapM_cons]
  simp only [runOn_bind_eq_ok_iff, FileAction.write, runOn_changing_eq_ok_iff, runOn_pure,
    Prod.mk.injEq, Except.ok.injEq]
  constructor
  · rintro ⟨_, _, ⟨_, next, hw, rfl, rfl⟩, rest, _, hl, rfl, rfl⟩
    exact ⟨next, rest, hw, hl, rfl⟩
  · rintro ⟨next, rest, hw, hl, rfl⟩
    exact ⟨_, next, ⟨(), next, hw, rfl, rfl⟩, rest, fs', hl, rfl, rfl⟩

/-- Each file has the path of its name. -/
theorem paths_of_writeEach (h : runOn (writeEach directory name text l) fs = (.ok paths, fs')) :
    paths = l.map fun a => Path.join directory (name a) := by
  induction l generalizing fs paths with
  | nil => exact (Except.ok.inj (Prod.mk.inj h).1).symm
  | cons a l ih =>
    obtain ⟨next, rest, -, hl, rfl⟩ := writeEach_cons_eq_ok_iff.1 h
    rw [ih hl, List.map_cons]

/-- What stands in the directory under other names is left as it was. -/
theorem get?_of_writeEach_of_ne (hl : ∀ a ∈ l, IsName (name a)) {other : String}
    (ho : IsName other) (hne : ∀ a ∈ l, name a ≠ other)
    (h : runOn (writeEach directory name text l) fs = (.ok paths, fs')) :
    fs'.get? (Path.join directory other) = fs.get? (Path.join directory other) := by
  induction l generalizing fs paths with
  | nil => rw [(Prod.mk.inj h).2]
  | cons a l ih =>
    obtain ⟨ha, hl⟩ := List.forall_mem_cons.1 hl
    obtain ⟨hna, hne⟩ := List.forall_mem_cons.1 hne
    obtain ⟨next, rest, hw, hrest, -⟩ := writeEach_cons_eq_ok_iff.1 h
    rw [ih hl hne hrest, FileSystem.get?_of_write_of_ne ha ho (Ne.symm hna) hw]

/-- A file holds what was written last under its name. -/
theorem get?_of_writeEach (hl : ∀ a ∈ l, IsName (name a)) {before after : List α} {a : α}
    (hsplit : l = before ++ a :: after) (hlast : ∀ b ∈ after, name b ≠ name a)
    (h : runOn (writeEach directory name text l) fs = (.ok paths, fs')) :
    fs'.get? (Path.join directory (name a)) = some (.ofText (text a)) := by
  subst hsplit
  induction before generalizing fs paths with
  | nil =>
    obtain ⟨ha, hl⟩ := List.forall_mem_cons.1 hl
    obtain ⟨next, rest, hw, hrest, -⟩ := writeEach_cons_eq_ok_iff.1 h
    rw [get?_of_writeEach_of_ne hl ha hlast hrest, FileSystem.get?_of_write ha hw]
  | cons b before ih =>
    obtain ⟨next, rest, -, hrest, -⟩ := writeEach_cons_eq_ok_iff.1 h
    exact ih (List.forall_mem_cons.1 hl).2 hrest

end Several

end FileAction

end Atlas
