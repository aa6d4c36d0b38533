import Atlas.Files.System
import Atlas.Proofs.Members
import Atlas.Proofs.Result
import Mathlib.Data.List.Flatten
import Mathlib.Data.List.Infix

/-!
# Places in a file tree

`FileTree.places` lists what stands in a tree with the names on the way there, in the order of a
walk. A filtered walk meets the places that the filter lets it reach, in that order, whatever the
filter (`walk_eq`, `directories_eq`) : a place is reached if the filter keeps every directory on the
way and what stands at the end (`reaches_iff`).

In an ordered tree the places are just what is found by following names (`Ordered.mem_places`), and
they stand in the lexicographic order of their names (`Ordered.pairwise_places`). So the source files
of a project are the files with no excluded or hidden directory on the way to them, in that order
(`mem_sourceFiles`, `pairwise_sourceFiles`).

In a file system a path leads to what its parts lead to, one after another from where it starts
(`FileSystem.get?_eq_some_iff`). The trees at several paths are there if something stands at each of
them (`FileSystem.trees?_eq_ok`).
-/

set_option linter.unusedSectionVars false

namespace Atlas.FileTree

/-- Induction over trees : a directory has what all its entries have. -/
@[elab_as_elim, induction_eliminator]
theorem induction {motive : FileTree → Prop} (file : ∀ content, motive (file content))
    (directory : ∀ es, (∀ e ∈ es, motive e.2) → motive (directory es)) (t : FileTree) : motive t :=
  t.rec (motive_2 := fun es => ∀ e ∈ es, motive e.2) (motive_3 := fun e => motive e.2)
    file directory (fun _ he => absurd he List.not_mem_nil)
    (fun _ _ he hes => List.forall_mem_cons.2 ⟨he, hes⟩) fun _ _ he => he

/-- The bytes of a file. -/
def content? : FileTree → Option (List UInt8)
  | file content => some content
  | directory _ => none

/-- The entries of a directory. -/
def entries? : FileTree → Option (List (String × FileTree))
  | file _ => none
  | directory es => some es

/-! ## Places -/

mutual

/-- What stands in a tree, with the names on the way there. A directory stands before what is in
it. -/
def places : FileTree → List (List String × FileTree)
  | file content => [([], file content)]
  | directory es => ([], directory es) :: placesIn es

/-- What stands in the entries of a directory. -/
def placesIn : List (String × FileTree) → List (List String × FileTree)
  | [] => []
  | (name, e) :: es => (places e).map (fun p => (name :: p.1, p.2)) ++ placesIn es

end

theorem places_file (content : List UInt8) : (file content).places = [([], file content)] := by
  rw [places]

theorem places_directory (es : List (String × FileTree)) : (directory es).places =
    ([], directory es) :: es.flatMap fun e => e.2.places.map fun p => (e.1 :: p.1, p.2) := by
  have hes : placesIn es = es.flatMap fun e => e.2.places.map fun p => (e.1 :: p.1, p.2) := by
    induction es with
    | nil => rw [placesIn, List.flatMap_nil]
    | cons e es ih => rw [placesIn, ih, List.flatMap_cons]
  rw [places, hes]

/-! ## Filtered walks -/

/-- Whether a filter lets a walk from `path` reach what stands at the end of `names`. The last
argument says whether a directory stands there. -/
def reaches (keep : List String → Bool → Bool) (path : List String) : List String → Bool → Bool
  | [], isDirectory => keep path isDirectory
  | name :: names, isDirectory => keep path true && reaches keep (path ++ [name]) names isDirectory

theorem reaches_iff {keep : List String → Bool → Bool} {path names : List String} {d : Bool} :
    reaches keep path names d = true ↔ keep (path ++ names) d = true ∧
      ∀ p, p <+: names → p ≠ names → keep (path ++ p) true = true := by
  induction names generalizing path with
  | nil =>
    rw [reaches, List.append_nil]
    exact ⟨fun h => ⟨h, fun p hp hne => absurd (List.prefix_nil.1 hp) hne⟩, And.left⟩
  | cons name names ih =>
    rw [reaches, Bool.and_eq_true, ih, List.append_assoc, List.singleton_append]
    constructor
    · rintro ⟨hpath, hend, hway⟩
      refine ⟨hend, fun p hp hne => ?_⟩
      rcases List.prefix_cons_iff.1 hp with rfl | ⟨q, rfl, hq⟩
      · rwa [List.append_nil]
      · simpa using hway q hq fun he => hne (congrArg _ he)
    · rintro ⟨hend, hway⟩
      refine ⟨?_, hend, fun p hp hne => ?_⟩
      · simpa using hway [] List.nil_prefix (List.cons_ne_nil _ _).symm
      · rw [List.append_assoc, List.singleton_append]
        exact hway _ (List.cons_prefix_cons.2 ⟨rfl, hp⟩) fun he => hne (List.cons.inj he).2

/-- A filter that does not ask what stands at a path keeps all or nothing on the way. -/
theorem reaches_const_iff {keep : List String → Bool} {path names : List String} {d : Bool} :
    reaches (fun q _ => keep q) path names d = true ↔
      ∀ p, p <+: names → keep (path ++ p) = true := by
  rw [reaches_iff]
  constructor
  · rintro ⟨hend, hway⟩ p hp
    by_cases he : p = names
    · rwa [he]
    · exact hway p hp he
  · exact fun h => ⟨h names List.prefix_rfl, fun p hp _ => h p hp⟩

theorem walk_directory (keep : List String → Bool → Bool) (path : List String)
    (es : List (String × FileTree)) : (directory es).walk keep path =
      if keep path true then es.flatMap fun e => e.2.walk keep (path ++ [e.1]) else [] := by
  have hes : walkEntries keep path es = es.flatMap fun e => e.2.walk keep (path ++ [e.1]) := by
    induction es with
    | nil => rfl
    | cons e es ih => rw [walkEntries, ih, List.flatMap_cons]
  rw [walk, hes]

theorem directories_directory (keep : List String → Bool) (path : List String)
    (es : List (String × FileTree)) : (directory es).directories keep path =
      if keep path then (path, es) :: es.flatMap fun e => e.2.directories keep (path ++ [e.1])
      else [] := by
  have hes : directoriesOf keep path es =
      es.flatMap fun e => e.2.directories keep (path ++ [e.1]) := by
    induction es with
    | nil => rfl
    | cons e es ih => rw [directoriesOf, ih, List.flatMap_cons]
  rw [directories, hes]

/-- What a walk with a filter makes of the places that it reaches. -/
def collect {β : Type} (keep : List String → Bool → Bool) (path : List String)
    (f : List String × FileTree → Option β) (t : FileTree) : List β :=
  (t.places.filter fun p => reaches keep path p.1 p.2.isDirectory).filterMap fun p =>
    f (path ++ p.1, p.2)

theorem collect_directory {β : Type} (keep : List String → Bool → Bool) (path : List String)
    (f : List String × FileTree → Option β) (es : List (String × FileTree)) :
    (directory es).collect keep path f = if keep path true then
      (f (path, directory es)).toList ++ es.flatMap fun e => e.2.collect keep (path ++ [e.1]) f
      else [] := by
  have hbelow : ∀ e : String × FileTree, ((e.2.places.map fun p => (e.1 :: p.1, p.2)).filter
      fun p => reaches keep path p.1 p.2.isDirectory).filterMap (fun p => f (path ++ p.1, p.2)) =
        if keep path true then e.2.collect keep (path ++ [e.1]) f else [] := fun e => by
    rw [List.filter_map, List.filterMap_map, collect]
    cases hk : keep path true <;> simp [reaches, hk, Function.comp_def]
  have hhere : reaches keep path [] (directory es).isDirectory = keep path true := rfl
  rw [collect, places_directory, List.filter_cons, List.filter_flatMap, hhere]
  cases hk : keep path true with
  | false =>
    rw [if_neg Bool.false_ne_true, if_neg Bool.false_ne_true, List.filterMap_flatMap]
    refine List.flatMap_eq_nil_iff.2 fun e _ => ?_
    rw [hbelow, hk, if_neg Bool.false_ne_true]
  | true =>
    simp only [hk, if_true, List.filterMap_cons, List.append_nil, List.filterMap_flatMap, hbelow]
    cases f (path, directory es) <;> rfl

theorem mem_collect {β : Type} {keep : List String → Bool → Bool} {path : List String}
    {f : List String × FileTree → Option β} {t : FileTree} {b : β} :
    b ∈ t.collect keep path f ↔ ∃ names e, (names, e) ∈ t.places ∧
      reaches keep path names e.isDirectory = true ∧ f (path ++ names, e) = some b := by
  simp only [collect, List.mem_filterMap, List.mem_filter, and_assoc, Prod.exists]

/-- A filtered walk gives the files that it reaches. -/
theorem walk_eq (keep : List String → Bool → Bool) (path : List String) (t : FileTree) :
    t.walk keep path = t.collect keep path fun p => p.2.content?.map (Found.mk p.1) := by
  induction t generalizing path with
  | file content =>
    rw [walk, collect, places_file]
    cases hk : keep path false <;> simp [reaches, isDirectory, content?, hk]
  | directory es ih =>
    rw [walk_directory, collect_directory]
    refine if_congr Iff.rfl ?_ rfl
    exact List.flatMap_congr fun e he => ih e he _

/-- A filtered walk gives the directories that it reaches. -/
theorem directories_eq (keep : List String → Bool) (path : List String) (t : FileTree) :
    t.directories keep path =
      t.collect (fun q _ => keep q) path fun p => p.2.entries?.map (Prod.mk p.1) := by
  induction t generalizing path with
  | file content => simp [directories, collect, places_file, entries?, List.filterMap_filter]
  | directory es ih =>
    rw [directories_directory, collect_directory]
    refine if_congr Iff.rfl (congrArg _ ?_) rfl
    exact List.flatMap_congr fun e he => ih e he _

/-! ## Ordered trees -/

/-- The entries of every directory stand in the order of their names, each name once. -/
inductive Ordered : FileTree → Prop
  | file (content : List UInt8) : Ordered (file content)
  | directory {es : List (String × FileTree)} (inOrder : InOrder es)
      (entries : ∀ e ∈ es, Ordered e.2) : Ordered (directory es)

theorem at?_cons (es : List (String × FileTree)) (name : String) (names : List String) :
    (directory es).at? (name :: names) = (es.lookup name).bind (·.at? names) := by
  rw [at?, entry?]
  cases es.lookup name <;> rfl

/-- Nothing stands below a file. -/
theorem at?_file (content : List UInt8) (names : List String) :
    (file content).at? names = if names = [] then some (file content) else none := by
  cases names <;> rfl

theorem at?_append (t : FileTree) (p q : List String) :
    t.at? (p ++ q) = (t.at? p).bind (·.at? q) := by
  induction p generalizing t with
  | nil => rfl
  | cons name p ih =>
    cases t with
    | file content => rfl
    | directory es =>
      rw [List.cons_append, at?_cons, at?_cons]
      cases es.lookup name with
      | none => rfl
      | some e => exact ih e

namespace Ordered

variable {t : FileTree}

theorem inOrder {es : List (String × FileTree)} (h : (FileTree.directory es).Ordered) :
    InOrder es := by
  cases h
  assumption

/-- What stands in an ordered tree is ordered. -/
theorem at? (h : t.Ordered) {names : List String} {e : FileTree} (he : t.at? names = some e) :
    e.Ordered := by
  induction names generalizing t with
  | nil => exact Option.some.inj he ▸ h
  | cons name names ih =>
    cases h with
    | file content => simp [at?_file] at he
    | directory inOrder entries =>
      rw [at?_cons] at he
      obtain ⟨e', hl, he⟩ := Option.bind_eq_some_iff.1 he
      exact ih (entries _ (inOrder.lookup_eq_some_iff.1 hl)) he

/-- The places are what is found by following names. -/
theorem mem_places (h : t.Ordered) {names : List String} {e : FileTree} :
    (names, e) ∈ t.places ↔ t.at? names = some e := by
  induction h generalizing names with
  | file content =>
    rw [places_file, List.mem_singleton, at?_file]
    by_cases hn : names = [] <;> simp [hn, eq_comm]
  | @directory es inOrder entries ih =>
    rw [places_directory]
    cases names with
    | nil => simp [FileTree.at?, eq_comm]
    | cons name names =>
      simp only [List.mem_cons, Prod.mk.injEq, List.cons_ne_nil, false_and, false_or,
        List.mem_flatMap, List.mem_map, at?_cons, Option.bind_eq_some_iff,
        inOrder.lookup_eq_some_iff]
      constructor
      · rintro ⟨⟨n, d⟩, hd, ⟨p, e⟩, hp, hn, rfl⟩
        obtain ⟨rfl, rfl⟩ := List.cons.inj hn
        exact ⟨d, hd, (ih _ hd).1 hp⟩
      · rintro ⟨d, hd, he⟩
        exact ⟨(name, d), hd, (names, e), (ih _ hd).2 he, rfl, rfl⟩

/-- A walk meets the places in the lexicographic order of their names. -/
theorem pairwise_places (h : t.Ordered) : t.places.Pairwise fun p q => p.1 < q.1 := by
  induction h with
  | file content => exact List.pairwise_singleton _ _
  | @directory es inOrder entries ih =>
    rw [places_directory]
    refine List.pairwise_cons.2 ⟨fun q hq => ?_, List.pairwise_flatMap.2 ⟨fun e he => ?_, ?_⟩⟩
    · obtain ⟨e, -, hq⟩ := List.mem_flatMap.1 hq
      obtain ⟨p, -, rfl⟩ := List.mem_map.1 hq
      exact List.nil_lt_cons _ _
    · exact List.pairwise_map.2 ((ih e he).imp fun hlt => List.cons_lt_cons_self.2 hlt)
    · refine (List.pairwise_map.1 inOrder).imp fun hlt x hx y hy => ?_
      obtain ⟨p, -, rfl⟩ := List.mem_map.1 hx
      obtain ⟨q, -, rfl⟩ := List.mem_map.1 hy
      exact List.cons_lt_cons_iff.2 (Or.inl hlt)

/-- What is made of the places, with the names that lead to them, keeps their order. -/
theorem pairwise_collect (h : t.Ordered) {β : Type} (keep : List String → Bool → Bool)
    {f : List String × FileTree → Option β} {key : β → List String}
    (hkey : ∀ p b, f p = some b → key b = p.1) :
    (t.collect keep [] f).Pairwise fun a b => key a < key b := by
  refine List.pairwise_filterMap.2 ((h.pairwise_places.filter _).imp ?_)
  intro p q hlt a ha b hb
  rw [hkey _ _ ha, hkey _ _ hb]
  exact hlt

end Ordered

/-! ## Source files -/

/-- What holds of the last name of every way that ends before a path does, holds of the names of the
directories on the path. -/
theorem forall_getLast?_iff {p : String → Prop} {names : List String} :
    (∀ q, q <+: names → q ≠ names → ∀ n ∈ q.getLast?, p n) ↔ ∀ n ∈ names.dropLast, p n := by
  obtain rfl | ⟨directories, name, rfl⟩ := List.eq_nil_or_concat names
  · simp
  rw [List.concat_eq_append, List.dropLast_concat]
  -- the ways that end before the path are those to its directories
  constructor
  · intro h n hn
    obtain ⟨a, b, hab⟩ := List.append_of_mem hn
    have hway : a ++ [n] <+: directories := ⟨b, by simp [hab]⟩
    refine h (a ++ [n]) (hway.trans (List.prefix_append _ _)) (fun he => ?_) n (by simp)
    simpa [he] using hway.length_le
  · intro h q hq hne n hn
    have hway := (List.prefix_concat_iff.1 hq).resolve_left hne
    exact h n (hway.subset (List.mem_of_getLast? hn))

/-- The walk over the source files asks directories alone for their names. -/
theorem exists_sourceFiles_eq (t : FileTree) : ∃ keep : List String → Bool → Bool,
    t.sourceFiles = t.walk keep [] ∧ ∀ names d, keep names d = true ↔
      (d = true → ∀ n ∈ names.getLast?, isScanned n = true) := by
  refine ⟨_, rfl, fun names d => ?_⟩
  cases names.getLast? <;> cases d <;> simp

/-- The source files are the files with no excluded or hidden directory on the way to them. -/
theorem mem_sourceFiles {t : FileTree} (h : t.Ordered) {f : Found} : f ∈ t.sourceFiles ↔
    t.at? f.path = some (file f.content) ∧ ∀ d ∈ f.path.dropLast, isScanned d = true := by
  obtain ⟨keep, hwalk, hkeep⟩ := exists_sourceFiles_eq t
  have hkept : ∀ names, reaches keep [] names false = true ↔
      ∀ d ∈ names.dropLast, isScanned d = true := fun names => by
    rw [reaches_iff, ← forall_getLast?_iff]
    simp [hkeep]
  simp only [hwalk, walk_eq, mem_collect, h.mem_places, List.nil_append, Option.map_eq_some_iff]
  constructor
  · rintro ⟨names, e, he, hr, content, hc, rfl⟩
    cases e with
    | file c => exact ⟨Option.some.inj hc ▸ he, (hkept names).1 hr⟩
    | directory es => cases hc
  · rintro ⟨he, hr⟩
    exact ⟨f.path, _, he, (hkept _).2 hr, f.content, rfl, rfl⟩

theorem pairwise_sourceFiles {t : FileTree} (h : t.Ordered) :
    t.sourceFiles.Pairwise fun f g => f.path < g.path := by
  rw [sourceFiles, walk_eq]
  refine h.pairwise_collect _ fun p f hf => ?_
  obtain ⟨content, -, rfl⟩ := Option.map_eq_some_iff.1 hf
  rfl

theorem insertEntry_eq (name : String) (t : FileTree) (es : List (String × FileTree)) :
    insertEntry name t es = Data.insertMember name t es := by
  induction es with
  | nil => rfl
  | cons e es ih => rw [insertEntry, Data.insertMember, ih]

/-- What an insertion below a tree does : the entry that its way leads through is replaced. -/
theorem insert?_cons_eq_some {new t t' : FileTree} {name : String} {path : List String}
    (h : insert? new (name :: path) t = some t') : ∃ es e, t = directory es ∧
      insert? new path ((es.lookup name).getD emptyDirectory) = some e ∧
      t' = directory (Data.insertMember name e es) := by
  cases t with
  | file content => cases h
  | directory es =>
    rw [insert?] at h
    split at h
    · next e he => exact ⟨es, e, rfl, he, insertEntry_eq name e es ▸ (Option.some.inj h).symm⟩
    · cases h

theorem at?_insertMember (name n : String) (e : FileTree) (es : List (String × FileTree))
    (names : List String) : (directory (Data.insertMember name e es)).at? (n :: names) =
      if n = name then e.at? names else (directory es).at? (n :: names) := by
  rw [at?_cons, at?_cons, Data.lookup_insertMember]
  split_ifs <;> rfl

section Insert

variable {new t t' : FileTree} {path : List String}

/-- What is inserted is found at the end of its way. -/
theorem at?_insert? (h : insert? new path t = some t') : t'.at? path = some new := by
  induction path generalizing t t' with
  | nil => exact h.symm
  | cons name path ih =>
    obtain ⟨es, e, rfl, he, rfl⟩ := insert?_cons_eq_some h
    rw [at?_insertMember, if_pos rfl, ih he]

/-- What stands neither on the way of an insertion nor at its end or below is found as before. -/
theorem at?_insert?_of_not_prefix (h : insert? new path t = some t') {names : List String}
    (hend : ¬path <+: names) (hway : ¬names <+: path) : t'.at? names = t.at? names := by
  induction path generalizing t t' names with
  | nil => exact absurd List.nil_prefix hend
  | cons name path ih =>
    obtain ⟨es, e, rfl, he, rfl⟩ := insert?_cons_eq_some h
    cases names with
    | nil => exact absurd List.nil_prefix hway
    | cons n names =>
      rw [at?_insertMember]
      split_ifs with hn
      · subst hn
        rw [List.cons_prefix_cons, not_and] at hend hway
        rw [ih he (hend rfl) (hway rfl), at?_cons]
        cases es.lookup n with
        | none =>
          cases names with
          | nil => exact absurd List.nil_prefix (hway rfl)
          | cons m names => rfl
        | some d => rfl
      · rfl

/-- Where an insertion replaces no directory, all directories stay directories. -/
theorem exists_directory_insert? (h : insert? new path t = some t')
    (hpath : ∀ es, t.at? path ≠ some (directory es)) {names : List String}
    {es : List (String × FileTree)} (hes : t.at? names = some (directory es)) :
    ∃ es', t'.at? names = some (directory es') := by
  induction path generalizing t t' names with
  | nil =>
    cases t with
    | file content => simp [at?_file] at hes
    | directory es' => exact absurd rfl (hpath es')
  | cons name path ih =>
    obtain ⟨ds, e, rfl, he, rfl⟩ := insert?_cons_eq_some h
    cases names with
    | nil => exact ⟨_, rfl⟩
    | cons n names =>
      rw [at?_insertMember]
      split_ifs with hn
      · subst hn
        rw [at?_cons] at hes hpath
        cases hd : ds.lookup n with
        | none => simp [hd] at hes
        | some d =>
          rw [hd] at he hes hpath
          exact ih he hpath hes
      · exact ⟨es, hes⟩

/-- A tree stays ordered when an ordered one is inserted. -/
theorem Ordered.insert? (ht : t.Ordered) (hnew : new.Ordered) (h : insert? new path t = some t') :
    t'.Ordered := by
  induction path generalizing t t' with
  | nil => exact Option.some.inj h ▸ hnew
  | cons name path ih =>
    obtain ⟨es, e, rfl, he, rfl⟩ := insert?_cons_eq_some h
    cases ht with
    | directory inOrder entries =>
      have hd : ((es.lookup name).getD emptyDirectory).Ordered := by
        cases hl : es.lookup name with
        | none => exact .directory InOrder.nil fun _ he => absurd he List.not_mem_nil
        | some d => exact entries _ (inOrder.lookup_eq_some_iff.1 hl)
      refine .directory (inOrder.insertMember name e) fun e' he' => ?_
      rcases Data.mem_insertMember he' with rfl | he'
      · exact ih hd he
      · exact entries e' he'

end Insert

end Atlas.FileTree

/-! ## What stands at a path -/

namespace Atlas

namespace FileSystem

variable {fs : FileSystem}

/-- What stands at a path is what its parts lead to. -/
theorem get?_eq_some_iff {path : String} {t : FileTree} : fs.get? path = some t ↔
    pathFault? path = none ∧ ∃ here,
      follow fs.root (fs.start path) (Text.splitOn '/' path) = .ok here ∧
      fs.root.at? here.reverse = some t := by
  rw [get?, locate]
  cases pathFault? path with
  | some fault => simp [throw, throwThe, MonadExceptOf.throw, bind, Except.bind, Except.toOption]
  | none =>
    cases follow fs.root (fs.start path) (Text.splitOn '/' path) with
    | error fault => simp [bind, Except.bind, Except.toOption]
    | ok here =>
      cases ht : fs.root.at? here.reverse <;>
        simp [ht, throw, throwThe, MonadExceptOf.throw, bind, Except.bind, pure, Except.pure,
          Except.toOption]

theorem ordered_of_get? (h : fs.root.Ordered) {path : String} {t : FileTree}
    (ht : fs.get? path = some t) : t.Ordered := by
  obtain ⟨-, here, -, ht⟩ := get?_eq_some_iff.1 ht
  exact h.at? ht

/-! ### Several paths -/

/-- The trees at some paths, if something stands at each of them. -/
def trees? (fs : FileSystem) : List String → Result (List (String × FileTree))
  | [] => .ok []
  | path :: paths =>
    match fs.get? path with
    | some t => (trees? fs paths).map ((path, t) :: ·)
    | none => .error (.pathNotFound path)

theorem trees?_eq_ok {roots : List (String × FileTree)}
    (h : ∀ r ∈ roots, fs.get? r.1 = some r.2) : fs.trees? (roots.map Prod.fst) = .ok roots := by
  induction roots with
  | nil => rfl
  | cons r roots ih =>
    obtain ⟨hr, hroots⟩ := List.forall_mem_cons.1 h
    rw [List.map_cons, trees?, hr, ih hroots]
    rfl

/-- The first path at which nothing stands is named. -/
theorem trees?_eq_error {before : List (String × FileTree)} {path : String} {after : List String}
    (h : ∀ r ∈ before, fs.get? r.1 = some r.2) (hp : fs.get? path = none) :
    fs.trees? (before.map Prod.fst ++ path :: after) = .error (.pathNotFound path) := by
  induction before with
  | nil => rw [List.map_nil, List.nil_append, trees?, hp]
  | cons r before ih =>
    obtain ⟨hr, hbefore⟩ := List.forall_mem_cons.1 h
    rw [List.map_cons, List.cons_append, trees?, hr, ih hbefore]
    rfl

end FileSystem

end Atlas
