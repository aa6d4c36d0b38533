import Atlas.Proofs.Files.Write
import Atlas.Proofs.Text
import Atlas.Swagger.Http
import Mathlib.Data.Finset.Max

/-!
# The files of a description

The operations of a description are grouped by tag (`Spec.groups_eq`), and each group is written to
a file that is named after its tag. The name is not the tag: letter case is lost, and blanks and
slashes become hyphens (`fileTag`). Two tags share a file exactly when their names agree
(`requestPath_inj`), and then the group that is written last is the one that stays
(`get?_of_writeRequests`).
-/

set_option linter.unusedSectionVars false

namespace Atlas.Swagger

/-! ## Groups -/

/-- The tags of a description, in their order. -/
def Spec.tags (spec : Spec) : List String :=
  spec.groups.map Prod.fst

/-- The operations of a tag. -/
def Spec.tagged (spec : Spec) (tag : String) : List Endpoint :=
  spec.endpoints.filter (·.tag = tag)

section Groups

variable (groups : List (String × List Endpoint))

theorem lookup_addToGroup (e : Endpoint) (tag : String) : (addToGroup groups e).lookup tag =
    if tag = e.tag then some ((groups.lookup tag).getD [] ++ [e]) else groups.lookup tag := by
  rw [addToGroup, Data.lookup_insertMember]
  split_ifs with h
  · rw [h]
  · rfl

/-- The group of a tag gains the operations of that tag, and appears with the first of them. -/
theorem lookup_foldl_addToGroup (es : List Endpoint) (tag : String) :
    (es.foldl addToGroup groups).lookup tag =
      if es.filter (·.tag = tag) = [] then groups.lookup tag
      else some ((groups.lookup tag).getD [] ++ es.filter (·.tag = tag)) := by
  induction es generalizing groups with
  | nil => rfl
  | cons e es ih =>
    rw [List.foldl_cons, ih, lookup_addToGroup]
    by_cases ht : e.tag = tag
    · rw [if_pos ht.symm, List.filter_cons_of_pos (by simpa using ht),
        if_neg (List.cons_ne_nil _ _)]
      split_ifs with hes
      · rw [hes]
      · rw [Option.getD_some, List.append_assoc, List.singleton_append]
    · rw [if_neg (Ne.symm ht), List.filter_cons_of_neg (by simpa using ht)]

theorem inOrder_foldl_addToGroup {groups : List (String × List Endpoint)} (h : InOrder groups)
    (es : List Endpoint) : InOrder (es.foldl addToGroup groups) := by
  induction es generalizing groups with
  | nil => exact h
  | cons e es ih => exact ih (h.insertMember _ _)

end Groups

namespace Spec

variable (spec : Spec)

theorem inOrder_groups : InOrder spec.groups :=
  inOrder_foldl_addToGroup InOrder.nil _

theorem mem_groups {tag : String} {es : List Endpoint} :
    (tag, es) ∈ spec.groups ↔ es = spec.tagged tag ∧ es ≠ [] := by
  rw [← spec.inOrder_groups.lookup_eq_some_iff, groups, lookup_foldl_addToGroup, ← tagged]
  split_ifs with h
  · simp [h]
  · simp only [List.lookup_nil, Option.getD_none, List.nil_append, Option.some.injEq]
    exact ⟨fun he => ⟨he.symm, he ▸ h⟩, fun he => he.1.symm⟩

theorem mem_tags {tag : String} : tag ∈ spec.tags ↔ ∃ e ∈ spec.endpoints, e.tag = tag := by
  rw [tags, List.mem_map]
  constructor
  · rintro ⟨⟨_, es⟩, hg, rfl⟩
    obtain ⟨rfl, hne⟩ := spec.mem_groups.1 hg
    obtain ⟨e, he⟩ := List.exists_mem_of_ne_nil _ hne
    exact ⟨e, (List.mem_filter.1 he).1, of_decide_eq_true (List.mem_filter.1 he).2⟩
  · rintro ⟨e, he, rfl⟩
    exact ⟨_, spec.mem_groups.2
      ⟨rfl, List.ne_nil_of_mem (List.mem_filter.2 ⟨he, decide_eq_true rfl⟩)⟩, rfl⟩

/-- The groups are the tags, each with its operations in the order of the description. -/
theorem groups_eq : spec.groups = spec.tags.map fun tag => (tag, spec.tagged tag) := by
  rw [tags, List.map_map]
  conv_lhs => rw [← List.map_id spec.groups]
  exact List.map_congr_left fun g hg => Prod.ext rfl (spec.mem_groups.1 hg).1

theorem pairwise_tags : spec.tags.Pairwise (· < ·) :=
  spec.inOrder_groups

end Spec

/-! ## Names -/

/-- The name of the file of a tag. -/
def requestName (tag : String) : String :=
  fileTag tag ++ ".http"

/-- The path of the file of a tag. -/
def requestPath (directory tag : String) : String :=
  Path.join directory (requestName tag)

theorem requestName_inj {s t : String} : requestName s = requestName t ↔ fileTag s = fileTag t :=
  String.append_left_inj _

theorem slash_notMem_fileTag (tag : String) : '/' ∉ (fileTag tag).toList := by
  rw [fileTag, Text.onChars, String.toList_ofList, List.mem_map]
  rintro ⟨c, -, hc⟩
  split_ifs at hc with h
  · cases hc
  · exact h (Or.inr hc)

/-- A tag always names a file, also an empty tag and one that is a dot. -/
theorem isName_requestName (tag : String) : IsName (requestName tag) := by
  have hne : ∀ s, s.toList.length < 5 → requestName tag ≠ s := by
    rintro _ hs rfl
    simp [requestName] at hs
  refine ⟨?_, hne _ (by decide), hne _ (by decide), hne _ (by decide)⟩
  rw [requestName, String.toList_append, List.mem_append]
  exact not_or_intro (slash_notMem_fileTag tag) (by decide)

theorem requestPath_inj {directory s t : String} :
    requestPath directory s = requestPath directory t ↔ fileTag s = fileTag t := by
  refine ⟨fun h => ?_, fun h => congrArg (Path.join directory) (requestName_inj.2 h)⟩
  have hparts := congrArg (Text.splitOn '/') h
  rw [requestPath, requestPath, Path.splitOn_join (isName_requestName s).noSlash,
    Path.splitOn_join (isName_requestName t).noSlash] at hparts
  exact requestName_inj.1 (List.singleton_inj.1 (List.append_cancel_left hparts))

/-! ## Files -/

/-- The file shows the request of an operation. -/
def Shows (spec : Spec) (content : List UInt8) (e : Endpoint) : Prop :=
  Utf8.encode (Text.unlines (e.requestLines spec)).toList <:+: content

theorem shows_requestFile (spec : Spec) (tag : String) {es : List Endpoint} {e : Endpoint}
    (he : e ∈ es) : Shows spec (Utf8.encode (spec.requestFile tag es).toList) e := by
  have hlines : e.requestLines spec <:+: es.flatMap (Endpoint.requestLines spec) := by
    simpa using ((List.singleton_infix_iff e es).2 he).flatMap (Endpoint.requestLines spec)
  rw [Shows, Spec.requestFile, Text.toList_unlines, Text.toList_unlines]
  exact ((hlines.trans (List.suffix_append _ _).isInfix).flatMap _).flatMap _

section Run

variable {spec : Spec} {directory : String} {fs fs' : FileSystem} {paths : List String}

/-- What a successful run does : it writes the groups one after another. -/
theorem writeEach_of_writeRequests
    (h : FileAction.runOn (spec.writeRequests directory) fs = (.ok paths, fs')) :
    ∃ next, fs.makeDirectory directory = .ok next ∧
      FileAction.runOn (FileAction.writeEach directory requestName
        (fun tag => spec.requestFile tag (spec.tagged tag)) spec.tags) next = (.ok paths, fs') := by
  obtain ⟨_, next, hmake, h⟩ := FileAction.runOn_bind_eq_ok_iff.1 h
  refine ⟨next, FileAction.runOn_changing_eq_ok_iff.1 hmake, ?_⟩
  rw [Spec.groups_eq, List.mapM_map] at h
  exact h

/-- The file of a tag holds the operations of the last tag that has its name. -/
theorem get?_of_writeRequests
    (h : FileAction.runOn (spec.writeRequests directory) fs = (.ok paths, fs')) {tag : String}
    (ht : tag ∈ spec.tags) (hlast : ∀ t ∈ spec.tags, fileTag t = fileTag tag → t ≤ tag) :
    fs'.get? (requestPath directory tag) =
      some (.ofText (spec.requestFile tag (spec.tagged tag))) := by
  obtain ⟨next, -, hrun⟩ := writeEach_of_writeRequests h
  obtain ⟨before, after, hsplit⟩ := List.append_of_mem ht
  have hafter : ∀ t ∈ after, requestName t ≠ requestName tag := fun t hta hname => by
    have hpair := spec.pairwise_tags
    rw [hsplit] at hpair
    have hlt : tag < t := (List.pairwise_cons.1 (List.pairwise_append.1 hpair).2.1).1 t hta
    have hmem : t ∈ spec.tags := by
      rw [hsplit]
      exact List.mem_append_right _ (List.mem_cons_of_mem _ hta)
    exact absurd (hlast t hmem (requestName_inj.1 hname)) (not_le.2 hlt)
  have hfile := FileAction.get?_of_writeEach (fun t _ => isName_requestName t) hsplit hafter hrun
  exact hfile

theorem paths_of_writeRequests
    (h : FileAction.runOn (spec.writeRequests directory) fs = (.ok paths, fs')) :
    paths = spec.tags.map (requestPath directory) := by
  obtain ⟨next, -, hrun⟩ := writeEach_of_writeRequests h
  exact FileAction.paths_of_writeEach hrun

/-- Among the tags that share a name there is a last one. -/
theorem exists_last_tag {tag : String} (ht : tag ∈ spec.tags) :
    ∃ last ∈ spec.tags, fileTag last = fileTag tag ∧
      ∀ t ∈ spec.tags, fileTag t = fileTag tag → t ≤ last := by
  obtain ⟨last, hlast, hmax⟩ := Finset.exists_max_image
    (spec.tags.toFinset.filter (fileTag · = fileTag tag)) id ⟨tag, by simpa using ht⟩
  simp only [Finset.mem_filter, List.mem_toFinset, id, and_imp] at hlast hmax
  exact ⟨last, hlast.1, hlast.2, hmax⟩

/-- After a successful run there is one path for each tag, and two tags have the same path exactly
when their names agree, so that there are as many files as tags if no two names agree. Where some
agree, the last of these tags has the file, with all operations of that tag and none of the others.
So an operation is kept whose tag is the last one of its name. -/
theorem requests_kept
    (h : FileAction.runOn (spec.writeRequests directory) fs = (.ok paths, fs')) :
    paths = spec.tags.map (requestPath directory) ∧
    (∀ s t, requestPath directory s = requestPath directory t ↔ fileTag s = fileTag t) ∧
    (paths.Nodup ↔ (spec.tags.map fileTag).Nodup) ∧
    (∀ tag ∈ spec.tags, ∃ last ∈ spec.tags, fileTag last = fileTag tag ∧
      (∀ t ∈ spec.tags, fileTag t = fileTag tag → t ≤ last) ∧
      fs'.get? (requestPath directory tag) =
        some (.ofText (spec.requestFile last (spec.tagged last)))) ∧
    ∀ e ∈ spec.endpoints, (∀ t ∈ spec.tags, fileTag t = fileTag e.tag → t ≤ e.tag) →
      ∃ content, fs'.get? (requestPath directory e.tag) = some (.file content) ∧
        Shows spec content e := by
  have hpaths := paths_of_writeRequests h
  refine ⟨hpaths, fun s t => requestPath_inj, ?_, fun tag ht => ?_, fun e he hlast => ?_⟩
  · simp only [hpaths, List.Nodup, List.pairwise_map, ne_eq, requestPath_inj]
  · obtain ⟨last, hmem, hname, hmax⟩ := exists_last_tag ht
    refine ⟨last, hmem, hname, hmax, ?_⟩
    rw [← requestPath_inj.2 hname]
    exact get?_of_writeRequests h hmem fun t ht hn => hmax t ht (hn.trans hname)
  · have hmem : e.tag ∈ spec.tags := spec.mem_tags.2 ⟨e, he, rfl⟩
    exact ⟨_, get?_of_writeRequests h hmem hlast,
      shows_requestFile spec e.tag (List.mem_filter.2 ⟨he, decide_eq_true rfl⟩)⟩

end Run

/-- A description with two tags that differ in the case of a letter. -/
def ordersSpec : Spec where
  paths :=
    [("/orders", { operation := fun verb =>
        if verb = .get then some { id := some "exportOrders", tags := ["Orders"] } else none }),
      ("/orders/last", { operation := fun verb =>
        if verb = .get then some { id := some "lastOrder", tags := ["orders"] } else none })]

theorem exists_run_ordersSpec : ∃ paths fs', FileAction.runOn (ordersSpec.writeRequests "out")
    ⟨.emptyDirectory, []⟩ = (.ok paths, fs') :=
  FileAction.exists_of_isOk (by decide +kernel)

/-- The later one of two tags of one name has the file. -/
theorem requests_kept_ordersSpec : ∃ paths fs',
    FileAction.runOn (ordersSpec.writeRequests "out") ⟨.emptyDirectory, []⟩ = (.ok paths, fs') ∧
    ∀ e ∈ ordersSpec.endpoints, e.tag = "orders" →
      ∃ content, fs'.get? (requestPath "out" "orders") = some (.file content) ∧
        Shows ordersSpec content e := by
  obtain ⟨paths, fs', h⟩ := exists_run_ordersSpec
  obtain ⟨-, -, -, -, hkept⟩ := requests_kept h
  refine ⟨paths, fs', h, fun e he ht => ht ▸ hkept e he ?_⟩
  rw [ht]
  decide +kernel

/-- Of two tags that differ in the case of a letter, the file of one overwrites that of the other :
an operation that was to be written is in none of the files. -/
theorem requests_overwritten : ∃ paths fs',
    FileAction.runOn (ordersSpec.writeRequests "out") ⟨.emptyDirectory, []⟩ = (.ok paths, fs') ∧
    ordersSpec.tags.Nodup ∧ ¬paths.Nodup ∧
    ∃ e ∈ ordersSpec.endpoints, ∀ path ∈ paths, ∀ content,
      fs'.get? path = some (.file content) → ¬Shows ordersSpec content e := by
  obtain ⟨paths, fs', h⟩ := exists_run_ordersSpec
  have htags : ordersSpec.tags = ["Orders", "orders"] := by decide +kernel
  have hpath : requestPath "out" "Orders" = requestPath "out" "orders" :=
    requestPath_inj.2 (by decide +kernel)
  obtain rfl : paths = [requestPath "out" "orders", requestPath "out" "orders"] := by
    rw [paths_of_writeRequests h, htags, List.map_cons, List.map_singleton, hpath]
  have hfile := get?_of_writeRequests h (htags ▸ List.mem_cons_of_mem _ List.mem_cons_self)
    (by rw [htags]; decide +kernel)
  -- The letter x of the lost operation's name occurs nowhere in the file that is left.
  have hx : ∀ e ∈ ordersSpec.endpoints.head?,
      (0x78 : UInt8) ∈ Utf8.encode (Text.unlines (e.requestLines ordersSpec)).toList := by
    simp only [Text.toList_unlines]
    decide +kernel
  have hno : (0x78 : UInt8) ∉ Utf8.encode
      (ordersSpec.requestFile "orders" (ordersSpec.tagged "orders")).toList := by
    rw [Spec.requestFile, Text.toList_unlines]
    decide +kernel
  refine ⟨_, fs', h, by rw [htags]; decide, by simp, _, List.mem_cons_self, ?_⟩
  intro path hmem content hcontent
  obtain rfl : path = requestPath "out" "orders" := by simpa using hmem
  obtain rfl := FileTree.file.inj (Option.some.inj (hfile.symm.trans hcontent))
  exact fun hshows => hno (hshows.subset (hx _ rfl))

end Atlas.Swagger
