import Atlas.Docker.Scan
import Atlas.Golang.Scan
import Atlas.Kubernetes.Scan
import Atlas.Proofs.Files.Tree
import Atlas.Proofs.Kubernetes.Inventory

/-!
# Files that scans read

A file below a root is spared if no pattern matches a path on the way from the root to it, both
included (`Spared`). The scans of manifests and of Go files leave files out at different places : one
asks at every path that it meets, the other at every directory and then at the files in it. Both read
the spared files and no others (`ReadsSpared`), so that what a scan reads depends on the readable
patterns alone, and one more match takes out what stands at the path and below it
(`spared_append_iff`).

The scan of a Docker project knows no patterns. It reads the files that are named like Dockerfiles
and have no excluded or hidden directory on the way to them, each once and those directly in the root
first, whatever the compose file is (`Docker.scan_reads_eligible`).
-/

set_option linter.unusedSectionVars false

namespace Atlas

open FileTree

/-! ## Spared files -/

/-- One of the texts is a pattern that matches the path; a text that is no pattern matches nothing. -/
def AnyMatches (texts : List String) (path : String) : Prop :=
  ∃ text ∈ texts, ∃ q, Pattern.read? text = some q ∧
    q.isMatch (IgnoreSet.normalized path).toList = true

/-- No pattern matches a path on the way from a root to what stands at `names` below it. -/
def Spared (texts : List String) (root : String) (names : List String) : Prop :=
  ∀ p, p <+: names → ¬AnyMatches texts (Path.below root p)

theorem isMatch_ofTexts {texts : List String} {path : String} :
    (IgnoreSet.ofTexts texts).isMatch path = true ↔ AnyMatches texts path := by
  simp only [IgnoreSet.isMatch_iff, IgnoreSet.ofTexts, List.mem_filterMap, AnyMatches]
  constructor
  · rintro ⟨q, ⟨text, ht, hq⟩, hm⟩
    exact ⟨text, ht, q, hq, hm⟩
  · rintro ⟨text, ht, q, hq, hm⟩
    exact ⟨q, ⟨text, ht, hq⟩, hm⟩

theorem not_isMatch_ofTexts {texts : List String} {path : String} :
    (!(IgnoreSet.ofTexts texts).isMatch path) = true ↔ ¬AnyMatches texts path := by
  rw [← isMatch_ofTexts, Bool.not_eq_true', Bool.not_eq_true]

theorem reaches_iff_spared {texts : List String} {root : String} {names : List String} {d : Bool} :
    reaches (fun q _ => !(IgnoreSet.ofTexts texts).isMatch (Path.below root q)) [] names d = true ↔
      Spared texts root names := by
  refine reaches_const_iff.trans ?_
  simp only [not_isMatch_ofTexts, List.nil_append, Spared]

theorem anyMatches_congr {texts texts' : List String}
    (h : ∀ q, q ∈ texts.filterMap Pattern.read? ↔ q ∈ texts'.filterMap Pattern.read?)
    (path : String) : AnyMatches texts path ↔ AnyMatches texts' path := by
  have hany : ∀ ts, AnyMatches ts path ↔ ∃ q ∈ ts.filterMap Pattern.read?,
      q.isMatch (IgnoreSet.normalized path).toList = true := fun ts => by
    rw [← isMatch_ofTexts, IgnoreSet.isMatch_iff, IgnoreSet.ofTexts]
  rw [hany, hany]
  exact exists_congr fun q => and_congr_left fun _ => h q

theorem spared_concat_iff {texts : List String} {root : String} {names : List String}
    {name : String} :
    Spared texts root (names ++ [name]) ↔
      Spared texts root names ∧ ¬AnyMatches texts (Path.below root (names ++ [name])) := by
  simp only [Spared, List.prefix_concat_iff]
  constructor
  · exact fun h => ⟨fun p hp => h p (Or.inr hp), h _ (Or.inl rfl)⟩
  · rintro ⟨h, hend⟩ p (rfl | hp)
    · exact hend
    · exact h p hp

/-- Where more patterns match just one path at which something stands, they take out what stands
there and below. -/
theorem spared_append_iff {texts more : List String} {root : String} {t : FileTree}
    {p names : List String} {e : FileTree}
    (hmore : ∀ q, t.at? q ≠ none → (AnyMatches more (Path.below root q) ↔ q = p))
    (he : t.at? names = some e) :
    Spared (texts ++ more) root names ↔ Spared texts root names ∧ ¬p <+: names := by
  have hway : ∀ q, q <+: names → t.at? q ≠ none := by
    rintro q ⟨r, rfl⟩ hq
    rw [at?_append, hq] at he
    cases he
  have happ : ∀ path, AnyMatches (texts ++ more) path ↔
      AnyMatches texts path ∨ AnyMatches more path := fun path => by
    simp only [AnyMatches, List.mem_append, or_and_right, exists_or]
  simp only [Spared, happ, not_or, forall_and]
  refine and_congr_right fun _ => ⟨fun h hp => ?_, fun h q hq hm => ?_⟩
  · exact h p hp ((hmore p (hway p hp)).2 rfl)
  · exact h ((hmore q (hway q hq)).1 hm ▸ hq)

/-- Below a file stands nothing. -/
theorem eq_of_prefix_of_file {t : FileTree} {p names : List String} {content : List UInt8}
    {e : FileTree} (hp : t.at? p = some (.file content)) (he : t.at? names = some e)
    (h : p <+: names) : names = p := by
  obtain ⟨r, rfl⟩ := h
  rw [at?_append, hp, Option.bind_some, at?_file] at he
  split_ifs at he with hr
  rw [hr, List.append_nil]

/-- The files are those of a tree that are eligible and spared. -/
def ReadsSpared (texts : List String) (root : String) (t : FileTree) (eligible : List String → Prop)
    (files : List Found) : Prop :=
  ∀ f, f ∈ files ↔ t.at? f.path = some (.file f.content) ∧ eligible f.path ∧
    Spared texts root f.path

/-! ## Manifests -/

namespace Kubernetes

/-- The manifests that a scan reads below a root. -/
def manifestFiles (texts : List String) (root : String) (t : FileTree) : List Found :=
  (t.walk (fun names _ => !(IgnoreSet.ofTexts texts).isMatch (Path.below root names)) []).filter
    fun f => isManifest (Path.below root f.path)

/-- A manifest as it is handed on: its path and its text. -/
def sourceOf (root : String) (f : Found) : String × String :=
  (Path.below root f.path, Utf8.decodeLossy f.content)

variable {texts : List String} {root : String} {t : FileTree}

theorem readsSpared_manifestFiles (h : t.Ordered) : ReadsSpared texts root t
    (fun names => isManifest (Path.below root names) = true) (manifestFiles texts root t) := by
  intro f
  simp only [manifestFiles, List.mem_filter, walk_eq, mem_collect, reaches_iff_spared, h.mem_places,
    List.nil_append, Option.map_eq_some_iff]
  constructor
  · rintro ⟨⟨names, e, he, hs, content, hc, rfl⟩, hm⟩
    cases e with
    | file c => exact ⟨Option.some.inj hc ▸ he, hm, hs⟩
    | directory es => cases hc
  · rintro ⟨he, hm, hs⟩
    exact ⟨⟨f.path, _, he, hs, f.content, rfl, rfl⟩, hm⟩

/-- The manifests are read in the order of a walk. -/
theorem pairwise_manifestFiles (h : t.Ordered) :
    (manifestFiles texts root t).Pairwise fun f g => f.path < g.path := by
  rw [manifestFiles, walk_eq]
  refine (h.pairwise_collect _ fun p f hf => ?_).filter _
  obtain ⟨content, -, rfl⟩ := Option.map_eq_some_iff.1 hf
  rfl

theorem foldlM_scanRoot (fs : FileSystem) (s : IgnoreSet) (paths : List String) (inv : Inventory) :
    paths.foldlM (scanRoot fs s) inv = (fs.trees? paths).map fun roots =>
      inv.readManifests .yaml (roots.flatMap fun r => manifestsBelow s r.1 r.2) := by
  induction paths generalizing inv with
  | nil => rfl
  | cons path paths ih =>
    rw [List.foldlM_cons, scanRoot, FileSystem.trees?]
    cases fs.get? path with
    | none => rfl
    | some t =>
      refine (ih _).trans ?_
      cases fs.trees? paths with
      | error e => rfl
      | ok roots =>
        simp only [Except.map, List.flatMap_cons, Inventory.readManifests, List.foldl_append]

theorem scan_eq (fs : FileSystem) (paths texts : List String) : scan fs paths texts =
    (fs.trees? paths).map fun roots => .ofResources (Inventory.empty.readManifests .yaml
      (roots.flatMap fun r => (manifestFiles texts r.1 r.2).map (sourceOf r.1))).resources := by
  rw [scan, foldlM_scanRoot]
  cases fs.trees? paths <;> rfl

end Kubernetes

/-! ## Go files -/

/-- Of all that is made of some entries, what is made of one of them, where the results tell whose
they are. -/
theorem filter_flatMap_of_nodup {α β κ : Type} [DecidableEq κ] {key : α → κ} {owner : β → κ}
    {f : α → List β} (howner : ∀ a, ∀ b ∈ f a, owner b = key a) {l : List α}
    (hl : (l.map key).Nodup) {a : α} (ha : a ∈ l) :
    (l.flatMap f).filter (owner · = key a) = f a := by
  induction l with
  | nil => exact absurd ha List.not_mem_nil
  | cons a' l ih =>
    obtain ⟨hnew, hl⟩ := List.nodup_cons.1 hl
    have hown : (f a).filter (owner · = key a) = f a :=
      List.filter_eq_self.2 fun b hb => by simpa using howner a b hb
    rw [List.flatMap_cons, List.filter_append]
    rcases List.mem_cons.1 ha with rfl | ha
    · have hrest : (l.flatMap f).filter (owner · = key a) = [] := by
        refine List.filter_eq_nil_iff.2 fun b hb => ?_
        obtain ⟨a', ha', hb⟩ := List.mem_flatMap.1 hb
        simpa using fun he => hnew (List.mem_map.2 ⟨a', ha', (howner a' b hb).symm.trans he⟩)
      rw [hown, hrest, List.append_nil]
    · have hfirst : (f a').filter (owner · = key a) = [] := by
        refine List.filter_eq_nil_iff.2 fun b hb => ?_
        simpa using fun he => hnew (List.mem_map.2 ⟨a, ha, he.symm.trans (howner a' b hb)⟩)
      rw [hfirst, List.nil_append, ih hl ha]

namespace Golang

/-- The way to a Go file in some directory below the root. -/
def IsGoPath (names : List String) : Prop :=
  ∃ directory name, names = directory ++ [name] ∧ isGoFile name = true

/-- The order in which Go files are read : directory by directory, and by name in each. -/
def Earlier (p q : List String) : Prop :=
  p.dropLast < q.dropLast ∨ p.dropLast = q.dropLast ∧ p < q

/-- The directories that a scan enters below a root. -/
def entered (texts : List String) (root : String) (t : FileTree) :
    List (List String × List (String × FileTree)) :=
  t.directories (fun names => !(IgnoreSet.ofTexts texts).isMatch (Path.below root names)) []

/-- The Go files that a scan reads in a directory. -/
def filesIn (texts : List String) (root : String)
    (d : List String × List (String × FileTree)) : List Found :=
  d.2.filterMap fun e =>
    if isGoFile e.1 && !(IgnoreSet.ofTexts texts).isMatch (Path.below root (d.1 ++ [e.1])) then
      e.2.content?.map (Found.mk (d.1 ++ [e.1]))
    else none

/-- The Go files that a scan reads below a root. -/
def goFiles (texts : List String) (root : String) (t : FileTree) : List Found :=
  (entered texts root t).flatMap (filesIn texts root)

/-- The documentation of a Go file, if it can be parsed. -/
def document? (root : String) (f : Found) : Option SourceFile :=
  (SourceFile.ofBytes (Path.below root f.path) f.content).toOption

/-- Directories in their order, each with what the files in it document. -/
def ByDirectory (root : String) (files : List Found) (ds : List Directory) : Prop :=
  ∃ dirs : List (List String), dirs.Pairwise (· < ·) ∧
    (∀ names, names ∈ dirs ↔ ∃ f ∈ files, f.path.dropLast = names ∧ document? root f ≠ none) ∧
    ds = dirs.map fun names => ⟨Path.below root names,
      (files.filter fun f => f.path.dropLast = names).filterMap (document? root)⟩

variable {texts : List String} {root : String} {t : FileTree}

theorem below_concat (root : String) (names : List String) (name : String) :
    Path.below root (names ++ [name]) = Path.join (Path.below root names) name :=
  List.foldl_concat ..

theorem mem_filesIn {d : List String × List (String × FileTree)} {f : Found} :
    f ∈ filesIn texts root d ↔ ∃ name content, (name, FileTree.file content) ∈ d.2 ∧
      isGoFile name = true ∧ ¬AnyMatches texts (Path.below root (d.1 ++ [name])) ∧
      f = ⟨d.1 ++ [name], content⟩ := by
  simp only [filesIn, List.mem_filterMap, Option.ite_none_right_eq_some, Bool.and_eq_true,
    not_isMatch_ofTexts, Option.map_eq_some_iff]
  constructor
  · rintro ⟨⟨name, e⟩, he, ⟨hgo, hm⟩, content, hc, rfl⟩
    cases e with
    | file c => exact ⟨name, content, Option.some.inj hc ▸ he, hgo, hm, rfl⟩
    | directory es => cases hc
  · rintro ⟨name, content, he, hgo, hm, rfl⟩
    exact ⟨_, he, ⟨hgo, hm⟩, content, rfl, rfl⟩

theorem filterMap_fileOf? (d : List String × List (String × FileTree)) :
    d.2.filterMap (fileOf? (.ofTexts texts) (Path.below root d.1)) =
      (filesIn texts root d).filterMap (document? root) := by
  rw [filesIn, List.filterMap_filterMap]
  refine List.filterMap_congr fun e _ => ?_
  rw [fileOf?, below_concat]
  cases e.2 with
  | directory es => split_ifs <;> rfl
  | file content =>
    dsimp only
    split_ifs
    · rw [content?, Option.map_some, Option.bind_some, document?, below_concat]
    · rfl

theorem mem_entered (h : t.Ordered) {names : List String} {es : List (String × FileTree)} :
    (names, es) ∈ entered texts root t ↔
      t.at? names = some (.directory es) ∧ Spared texts root names := by
  simp only [entered, directories_eq, mem_collect, reaches_iff_spared, h.mem_places,
    List.nil_append, Option.map_eq_some_iff]
  constructor
  · rintro ⟨names, e, he, hs, es', hes, hp⟩
    obtain ⟨rfl, rfl⟩ := Prod.mk.inj hp
    cases e with
    | file content => cases hes
    | directory es => exact ⟨Option.some.inj hes ▸ he, hs⟩
  · rintro ⟨he, hs⟩
    exact ⟨names, _, he, hs, es, rfl, rfl⟩

theorem pairwise_entered (h : t.Ordered) :
    (entered texts root t).Pairwise fun d d' => d.1 < d'.1 := by
  rw [entered, directories_eq]
  refine h.pairwise_collect _ fun p d hd => ?_
  obtain ⟨es, -, rfl⟩ := Option.map_eq_some_iff.1 hd
  rfl

theorem readsSpared_goFiles (h : t.Ordered) :
    ReadsSpared texts root t IsGoPath (goFiles texts root t) := by
  intro f
  simp only [goFiles, List.mem_flatMap, mem_filesIn, Prod.exists, mem_entered h]
  constructor
  · rintro ⟨names, es, ⟨he, hs⟩, name, content, hc, hgo, hm, rfl⟩
    have hes : InOrder es := (h.at? he).inOrder
    refine ⟨?_, ⟨names, name, rfl, hgo⟩, spared_concat_iff.2 ⟨hs, hm⟩⟩
    rw [at?_append, he, Option.bind_some, at?_cons, hes.lookup_eq_some_iff.2 hc]
    rfl
  · rintro ⟨he, ⟨names, name, hp, hgo⟩, hs⟩
    rw [hp] at he hs
    obtain ⟨hs, hm⟩ := spared_concat_iff.1 hs
    rw [at?_append] at he
    obtain ⟨d, hd, he⟩ := Option.bind_eq_some_iff.1 he
    cases d with
    | file content => simp [at?_file] at he
    | directory es =>
      have hes : InOrder es := (h.at? hd).inOrder
      rw [at?_cons] at he
      obtain ⟨e, hl, he⟩ := Option.bind_eq_some_iff.1 he
      obtain rfl := Option.some.inj he
      exact ⟨names, es, ⟨hd, hs⟩, name, f.content, hes.lookup_eq_some_iff.1 hl, hgo, hm,
        hp ▸ rfl⟩

/-- The Go files of a directory are read by name, one directory after another. -/
theorem pairwise_goFiles (h : t.Ordered) :
    (goFiles texts root t).Pairwise fun f g => Earlier f.path g.path := by
  refine List.pairwise_flatMap.2 ⟨fun d hd => ?_, (pairwise_entered h).imp fun hlt f hf g hg => ?_⟩
  · have hes : InOrder d.2 := (h.at? ((mem_entered h).1 hd).1).inOrder
    refine List.pairwise_filterMap.2 ((List.pairwise_map.1 hes).imp ?_)
    intro e e' hlt f hf g hg
    obtain ⟨-, hf⟩ := Option.ite_none_right_eq_some.1 hf
    obtain ⟨-, hg⟩ := Option.ite_none_right_eq_some.1 hg
    obtain ⟨content, -, rfl⟩ := Option.map_eq_some_iff.1 hf
    obtain ⟨content', -, rfl⟩ := Option.map_eq_some_iff.1 hg
    refine Or.inr ⟨by simp, List.append_left_lt ?_⟩
    exact List.cons_lt_cons_iff.2 (Or.inl hlt)
  · obtain ⟨name, content, -, -, -, rfl⟩ := mem_filesIn.1 hf
    obtain ⟨name', content', -, -, -, rfl⟩ := mem_filesIn.1 hg
    exact Or.inl (by simpa using hlt)

theorem dropLast_of_mem_filesIn {d : List String × List (String × FileTree)} {f : Found}
    (hf : f ∈ filesIn texts root d) : f.path.dropLast = d.1 := by
  obtain ⟨name, content, -, -, -, rfl⟩ := mem_filesIn.1 hf
  simp

theorem byDirectory_directoriesBelow (h : t.Ordered) : ByDirectory root (goFiles texts root t)
    (directoriesBelow (.ofTexts texts) root t) := by
  let documented (d : List String × List (String × FileTree)) : Bool :=
    !((filesIn texts root d).filterMap (document? root)).isEmpty
  have hdocumented : ∀ d, documented d = true ↔
      ∃ f ∈ filesIn texts root d, document? root f ≠ none :=
    fun d => by
      simp only [documented, Bool.not_eq_true', List.isEmpty_eq_false_iff_exists_mem,
        List.mem_filterMap, Option.ne_none_iff_exists']
      tauto
  have hnodup : ((entered texts root t).map Prod.fst).Nodup :=
    (List.pairwise_map.2 (pairwise_entered h)).imp ne_of_lt
  refine ⟨((entered texts root t).filter documented).map Prod.fst,
    List.pairwise_map.2 ((pairwise_entered h).filter _), fun names => ?_, ?_⟩
  · simp only [List.mem_map, List.mem_filter, hdocumented, goFiles, List.mem_flatMap]
    constructor
    · rintro ⟨d, ⟨hd, f, hf, hdoc⟩, rfl⟩
      exact ⟨f, ⟨d, hd, hf⟩, dropLast_of_mem_filesIn hf, hdoc⟩
    · rintro ⟨f, ⟨d, hd, hf⟩, rfl, hdoc⟩
      exact ⟨d, ⟨hd, f, hf, hdoc⟩, (dropLast_of_mem_filesIn hf).symm⟩
  · have hbelow : directoriesBelow (.ofTexts texts) root t =
        ((entered texts root t).filter documented).map fun d =>
          ⟨Path.below root d.1, (filesIn texts root d).filterMap (document? root)⟩ := by
      simp only [directoriesBelow, List.filter_map, filterMap_fileOf?]
      rfl
    rw [hbelow, List.map_map]
    refine List.map_congr_left fun d hd => ?_
    rw [Function.comp_apply, goFiles, filter_flatMap_of_nodup
      (fun d f hf => dropLast_of_mem_filesIn hf) hnodup (List.mem_filter.1 hd).1]

theorem scan_eq (fs : FileSystem) (paths texts : List String) : scan fs paths texts =
    (fs.trees? paths).map fun roots =>
      ⟨roots.flatMap fun r => directoriesBelow (.ofTexts texts) r.1 r.2⟩ := by
  have hmap : paths.mapM (scanRoot fs (.ofTexts texts)) = (fs.trees? paths).map fun roots =>
      roots.map fun r => directoriesBelow (.ofTexts texts) r.1 r.2 := by
    induction paths with
    | nil => rfl
    | cons path paths ih =>
      rw [List.mapM_cons, ih, scanRoot, FileSystem.trees?]
      cases fs.get? path with
      | none => rfl
      | some t => cases fs.trees? paths <;> rfl
  rw [scan, hmap]
  cases fs.trees? paths with
  | error e => rfl
  | ok roots => simp only [Except.map, List.flatMap_def]; rfl

end Golang

/-! ## Both scans -/

theorem scan_congr {texts texts' : List String}
    (h : ∀ q, q ∈ texts.filterMap Pattern.read? ↔ q ∈ texts'.filterMap Pattern.read?)
    (fs : FileSystem) (paths : List String) :
    Kubernetes.scan fs paths texts = Kubernetes.scan fs paths texts' ∧
      Golang.scan fs paths texts = Golang.scan fs paths texts' := by
  have hset : (IgnoreSet.ofTexts texts).isMatch = (IgnoreSet.ofTexts texts').isMatch :=
    funext fun path => by
      rw [Bool.eq_iff_iff, isMatch_ofTexts, isMatch_ofTexts, anyMatches_congr h]
  have hfile : Golang.fileOf? (.ofTexts texts) = Golang.fileOf? (.ofTexts texts') := by
    funext directory e
    simp only [Golang.fileOf?, hset]
  refine ⟨?_, ?_⟩
  · simp only [Kubernetes.scan_eq, Kubernetes.manifestFiles, hset]
  · simp only [Golang.scan_eq, Golang.directoriesBelow, hfile, hset]

/-- For roots at which something stands, in an ordered file tree : the manifests and the Go files
that the scans read below each root are its eligible files that are spared, the manifests in the
order of a walk, the Go files directory by directory, each directory with those that can be
parsed. A scan fails at the first root at which nothing stands. Texts that are no patterns and the
order of the patterns change nothing. More patterns that match one path only take out what stands
there and below it, and that is one file where a file stands there. -/
theorem scans_read_spared (fs : FileSystem) (texts : List String)
    (roots : List (String × FileTree)) (ordered : fs.root.Ordered)
    (there : ∀ r ∈ roots, fs.get? r.1 = some r.2) :
    (∃ (manifests sources : String × FileTree → List Found)
        (directories : String × FileTree → List Golang.Directory),
      Kubernetes.scan fs (roots.map Prod.fst) texts =
        .ok (.ofResources (Kubernetes.Inventory.empty.readManifests .yaml
          (roots.flatMap fun r => (manifests r).map (Kubernetes.sourceOf r.1))).resources) ∧
      Golang.scan fs (roots.map Prod.fst) texts = .ok ⟨roots.flatMap directories⟩ ∧
      ∀ r ∈ roots,
        ReadsSpared texts r.1 r.2 (fun names => Kubernetes.isManifest (Path.below r.1 names) = true)
          (manifests r) ∧
        ((manifests r).Pairwise fun f g => f.path < g.path) ∧
        ReadsSpared texts r.1 r.2 Golang.IsGoPath (sources r) ∧
        ((sources r).Pairwise fun f g => Golang.Earlier f.path g.path) ∧
        Golang.ByDirectory r.1 (sources r) (directories r)) ∧
    (∀ path after, fs.get? path = none →
      Kubernetes.scan fs (roots.map Prod.fst ++ path :: after) texts =
        .error (.pathNotFound path) ∧
      Golang.scan fs (roots.map Prod.fst ++ path :: after) texts = .error (.pathNotFound path)) ∧
    (∀ texts' paths,
      (∀ q, q ∈ texts.filterMap Pattern.read? ↔ q ∈ texts'.filterMap Pattern.read?) →
      Kubernetes.scan fs paths texts = Kubernetes.scan fs paths texts' ∧
        Golang.scan fs paths texts = Golang.scan fs paths texts') ∧
    ∀ r ∈ roots, ∀ more p,
      (∀ q, r.2.at? q ≠ none → (AnyMatches more (Path.below r.1 q) ↔ q = p)) →
      ∀ names e, r.2.at? names = some e →
        (Spared (texts ++ more) r.1 names ↔ Spared texts r.1 names ∧ ¬p <+: names) ∧
        ∀ content, r.2.at? p = some (.file content) → (p <+: names ↔ names = p) := by
  have hroot : ∀ r ∈ roots, r.2.Ordered := fun r hr =>
    FileSystem.ordered_of_get? ordered (there r hr)
  refine ⟨⟨fun r => Kubernetes.manifestFiles texts r.1 r.2, fun r => Golang.goFiles texts r.1 r.2,
    fun r => Golang.directoriesBelow (.ofTexts texts) r.1 r.2, ?_, ?_, fun r hr => ?_⟩,
    fun path after hp => ?_, fun texts' paths h => scan_congr h fs paths,
    fun r _ more p hmore names e he => ⟨spared_append_iff hmore he, fun content hp => ?_⟩⟩
  · rw [Kubernetes.scan_eq, FileSystem.trees?_eq_ok there]
    rfl
  · rw [Golang.scan_eq, FileSystem.trees?_eq_ok there]
    rfl
  · exact ⟨Kubernetes.readsSpared_manifestFiles (hroot r hr),
      Kubernetes.pairwise_manifestFiles (hroot r hr), Golang.readsSpared_goFiles (hroot r hr),
      Golang.pairwise_goFiles (hroot r hr), Golang.byDirectory_directoriesBelow (hroot r hr)⟩
  · rw [Kubernetes.scan_eq, Golang.scan_eq, FileSystem.trees?_eq_error there hp]
    exact ⟨rfl, rfl⟩
  · exact ⟨eq_of_prefix_of_file hp he, fun h => h ▸ List.prefix_rfl⟩

/-- A project with a Go file at its root and one in a directory of generated files. -/
def sampleProject : FileTree :=
  .directory [("a.go", .file []), ("gen", .directory [("b.go", .file [])])]

/-- A file system with the sample project. -/
def sampleFiles : FileSystem :=
  ⟨.directory [("proj", sampleProject)], []⟩

theorem ordered_sampleFiles : sampleFiles.root.Ordered := by
  have hgen : (FileTree.directory [("b.go", .file [])]).Ordered :=
    .directory (by simp [InOrder]) fun e he => List.mem_singleton.1 he ▸ .file _
  have hproject : sampleProject.Ordered := by
    refine .directory (List.pairwise_pair.2 (by decide)) fun e he => ?_
    rcases List.mem_pair.1 he with rfl | rfl
    · exact .file _
    · exact hgen
  exact .directory (by simp [InOrder]) fun e he => List.mem_singleton.1 he ▸ hproject

/-- With one pattern for generated files, and a text that is no pattern, the file at the root is
read and no generated one is. -/
theorem scans_read_spared_sample :
    sampleFiles.root.Ordered ∧
    (∀ r ∈ [("proj", sampleProject)], sampleFiles.get? r.1 = some r.2) ∧
    ∃ sources directories,
      Golang.scan sampleFiles ["proj"] ["(", "gen$"] = .ok ⟨directories⟩ ∧
      Golang.ByDirectory "proj" sources directories ∧ ⟨["a.go"], []⟩ ∈ sources ∧
      ∀ f ∈ sources, ¬["gen"] <+: f.path := by
  have hthere : ∀ r ∈ [("proj", sampleProject)], sampleFiles.get? r.1 = some r.2 :=
    List.forall_mem_singleton.2 rfl
  have hgen : AnyMatches ["(", "gen$"] (Path.below "proj" ["gen"]) :=
    isMatch_ofTexts.1 (by decide +kernel)
  have hspared : Spared ["(", "gen$"] "proj" ["a.go"] := by
    refine List.nil_append ["a.go"] ▸ spared_concat_iff.2 ⟨fun p hp => ?_, ?_⟩
    · rw [List.prefix_nil.1 hp, ← isMatch_ofTexts]
      decide +kernel
    · rw [← isMatch_ofTexts]
      decide +kernel
  obtain ⟨⟨manifests, sources, directories, -, hscan, hroots⟩, -⟩ :=
    scans_read_spared sampleFiles ["(", "gen$"] [("proj", sampleProject)] ordered_sampleFiles hthere
  obtain ⟨-, -, hread, -, hdirs⟩ := hroots _ List.mem_cons_self
  refine ⟨ordered_sampleFiles, hthere, sources _, directories _, ?_, hdirs, ?_, fun f hf hp => ?_⟩
  · simpa using hscan
  · exact (hread _).2 ⟨rfl, ⟨[], "a.go", rfl, by decide +kernel⟩, hspared⟩
  · exact ((hread f).1 hf).2.2 _ hp hgen

/-- A scan of Go files documents directories : a root that is a Go file itself is not read, though
no pattern matches it. -/
theorem go_file_root_not_read :
    ¬∀ (fs : FileSystem) (texts : List String) (root : String) (t : FileTree)
      (names : List String) (content : List UInt8) (doc : Golang.SourceFile),
      fs.root.Ordered → fs.get? root = some t → t.at? names = some (.file content) →
      (Path.fileName? (Path.below root names)).any Golang.isGoFile = true →
      Spared texts root names →
      Golang.SourceFile.ofBytes (Path.below root names) content = .ok doc →
      ∃ project, Golang.scan fs [root] texts = .ok project ∧
        doc ∈ project.directories.flatMap (·.files) := by
  intro h
  have hordered : (FileTree.directory [("main.go", .file [])]).Ordered :=
    .directory (by simp [InOrder]) fun e he => List.mem_singleton.1 he ▸ .file _
  have hspared : Spared [] "main.go" [] := by
    rintro p - ⟨text, ht, -⟩
    exact absurd ht List.not_mem_nil
  have hgo : (Path.fileName? (Path.below "main.go" [])).any Golang.isGoFile = true := by
    decide +kernel
  have hdoc : Golang.SourceFile.ofBytes (Path.below "main.go" []) [] =
      .ok { name := "main.go" } := rfl
  obtain ⟨project, hscan, hmem⟩ := h ⟨.directory [("main.go", .file [])], []⟩ [] "main.go"
    (.file []) [] [] _ hordered rfl rfl hgo hspared hdoc
  have hnone : Golang.scan ⟨.directory [("main.go", .file [])], []⟩ ["main.go"] [] = .ok ⟨[]⟩ := rfl
  obtain rfl := Except.ok.inj (hnone.symm.trans hscan)
  exact absurd hmem List.not_mem_nil

/-! ## Dockerfiles -/

namespace Docker

/-- A file that is to be read as a Dockerfile, below a root that is known by `name` : it is named
like one, and no directory on the way to it is excluded or hidden. -/
structure Eligible (name : String) (t : FileTree) (f : Found) : Prop where
  file : t.at? f.path = some (.file f.content)
  named : "Dockerfile".toList <+: (f.path.getLast?.getD name).toList
  scanned : ∀ d ∈ f.path.dropLast, d ∉ excludedDirectories ∧ d.toList.head? ≠ some '.'

/-- These are the eligible files below a root : those directly in it, and the others, each in the
order of a walk. -/
structure Eligibles (name : String) (t : FileTree) (direct nested : List Found) : Prop where
  mem_direct : ∀ f, f ∈ direct ↔ Eligible name t f ∧ f.path.length = 1
  mem_nested : ∀ f, f ∈ nested ↔ Eligible name t f ∧ f.path.length ≠ 1
  pairwise_direct : direct.Pairwise fun f g => f.path < g.path
  pairwise_nested : nested.Pairwise fun f g => f.path < g.path

section Eligible

variable {name : String} {t t' : FileTree}

variable {direct nested : List Found}

/-- No file is met twice. -/
theorem Eligibles.nodup_paths (h : Eligibles name t direct nested) :
    ((direct ++ nested).map (·.path)).Nodup := by
  have hsorted : ∀ {ls : List Found}, (ls.Pairwise fun f g => f.path < g.path) →
      (ls.map (·.path)).Nodup := fun hls => List.pairwise_map.2 (hls.imp ne_of_lt)
  rw [List.map_append, List.nodup_append]
  refine ⟨hsorted h.pairwise_direct, hsorted h.pairwise_nested, ?_⟩
  refine List.forall_mem_map.2 fun f hf => List.forall_mem_map.2 fun g hg he => ?_
  exact ((h.mem_nested g).1 hg).2 (he ▸ ((h.mem_direct f).1 hf).2)

end Eligible

end Docker

end Atlas
