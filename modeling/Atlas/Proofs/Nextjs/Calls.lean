import Atlas.Proofs.Text
import Atlas.Proofs.Nextjs.Usages
import Mathlib.Data.List.TakeWhile

/-!
# Called addresses

An address calls an API route by the segments of its path. Query and fragment do not count behind a
path, and scheme and host do not count in front of one, but without a path the first slash of the
query is taken for its start (`Address.isCalledBy_parts`). Of the routes that fit the first one is
called (`Project.calls_eq`). A route without dynamic segments fits its own path, and is called
unless another route that fits is listed before it (`Project.calls_chosen`).
-/

set_option linter.unusedSectionVars false

namespace Atlas.Nextjs

/-! ## Parts of an address -/

/-- The text from its first slash on. -/
def fromSlash (s : String) : String := String.ofList (s.toList.dropWhile (· ≠ '/'))

/-- The parts of an address. The path is empty or starts with a slash, and `query` is a query string
or a fragment. -/
structure Address where
  scheme : String
  host : String
  path : String := ""
  query : String := ""
  scheme_mem : scheme ∈ ["http://", "https://"] := by decide
  host_plain : '/' ∉ host.toList ∧ '?' ∉ host.toList ∧ '#' ∉ host.toList := by decide
  path_start : path = "" ∨ path.toList.head? = some '/' := by decide
  path_plain : '?' ∉ path.toList ∧ '#' ∉ path.toList := by decide
  query_start : query = "" ∨ query.toList.head? = some '?' ∨ query.toList.head? = some '#' := by
    decide

/-- Scheme and host. -/
def Address.origin (u : Address) : String := u.scheme ++ u.host

theorem toList_fromSlash (s : String) : (fromSlash s).toList = s.toList.dropWhile (· ≠ '/') :=
  String.toList_ofList

theorem head?_fromSlash {s : String} : ∀ c ∈ (fromSlash s).toList.head?, c = '/' := by
  intro c hc
  have h := List.head?_dropWhile_not (· ≠ '/') s.toList
  rw [toList_fromSlash] at hc
  rw [Option.mem_def.1 hc] at h
  simpa using h

theorem fromSlash_append {s : String} (h : '/' ∉ s.toList) (t : String) :
    fromSlash (s ++ t) = fromSlash t := by
  have hplain : ∀ c ∈ s.toList, decide (c ≠ '/') = true := fun c hc =>
    decide_eq_true fun hslash => h (hslash ▸ hc)
  rw [fromSlash, String.toList_append, List.dropWhile_append_of_pos hplain, fromSlash]

theorem fromSlash_of_head?_eq {s : String} (h : s.toList.head? = some '/') : fromSlash s = s := by
  obtain ⟨r, hr⟩ := List.head?_eq_some_iff.1 h
  rw [fromSlash, hr, List.dropWhile_cons_of_neg (by decide), ← hr, String.ofList_toList]

/-! ## Origins -/

/-- Without a scheme in front an address is left as it is. -/
theorem stripOrigin_eq_self {s : String}
    (h : ∀ scheme ∈ ["http://", "https://"], ¬scheme.toList <+: s.toList) : stripOrigin s = s := by
  rw [stripOrigin, Text.dropPrefix?_eq_none (h _ (by simp)),
    Text.dropPrefix?_eq_none (h _ (by simp))]
  rfl

theorem stripOrigin_of_head?_ne {s : String} (h : s.toList.head? ≠ some 'h') :
    stripOrigin s = s := by
  refine stripOrigin_eq_self fun scheme hscheme ⟨t, ht⟩ => h ?_
  have hhead : ∀ scheme ∈ ["http://", "https://"], scheme.toList.head? = some 'h' := by decide
  rw [← ht, List.head?_append, hhead scheme hscheme, Option.some_or]

/-- Behind a scheme the path starts at the first slash. -/
theorem calledSegments_scheme {scheme : String} (h : scheme ∈ ["http://", "https://"])
    (s : String) : calledSegments (scheme ++ s) = calledSegments (fromSlash s) := by
  have hdrop : ((Text.dropPrefix? "http://" (scheme ++ s)).orElse
      fun _ => Text.dropPrefix? "https://" (scheme ++ s)) = some s := by
    rcases List.mem_pair.1 h with rfl | rfl
    · rw [Text.dropPrefix?_append, Option.orElse_some]
    · rw [Text.dropPrefix?_eq_none (by simp), Text.dropPrefix?_append]
      rfl
  have hstrip : stripOrigin (fromSlash s) = fromSlash s := stripOrigin_of_head?_ne fun hc =>
    absurd (head?_fromSlash _ hc) (by decide)
  rw [calledSegments, calledSegments, hstrip, stripOrigin, hdrop]
  dsimp only
  split
  · next hnil =>
    rw [fromSlash, hnil]
    decide
  · rfl

/-! ## Reading an address -/

/-- The route without segments is called by the addresses without any. -/
theorem isCalledBy_root (url : String) :
    ({ route := "" } : Api).isCalledBy url = (calledSegments url).isEmpty := by
  have hroot : segments "" = [] := by decide
  rw [Api.isCalledBy, hroot, segmentsMatch]

namespace Address

variable (u : Address)

/-- The path of an address ends where its query starts. -/
theorem takeWhile_path_query : (u.path ++ u.query).toList.takeWhile (fun c => c ≠ '?' ∧ c ≠ '#') =
    u.path.toList := by
  have hpath : ∀ c ∈ u.path.toList, decide (c ≠ '?' ∧ c ≠ '#') = true := fun c hc =>
    decide_eq_true ⟨fun h => u.path_plain.1 (h ▸ hc), fun h => u.path_plain.2 (h ▸ hc)⟩
  have hquery : u.query.toList.takeWhile (fun c => c ≠ '?' ∧ c ≠ '#') = [] := by
    rcases u.query_start with h | h | h
    · rw [h]
      rfl
    all_goals
      obtain ⟨r, hr⟩ := List.head?_eq_some_iff.1 h
      rw [hr, List.takeWhile_cons_of_neg (by decide)]
  rw [String.toList_append, List.takeWhile_append_of_pos hpath, hquery, List.append_nil]

/-- No scheme stands at the start of a path or query. -/
theorem head?_path_query : (u.path ++ u.query).toList.head? ≠ some 'h' := by
  rw [String.toList_append, List.head?_append]
  rcases u.path_start with h | h
  · rw [h]
    rcases u.query_start with hq | hq | hq <;> rw [hq] <;> decide
  · rw [h, Option.some_or]
    decide

theorem calledSegments_path_query : calledSegments (u.path ++ u.query) = segments u.path := by
  rw [calledSegments, stripOrigin_of_head?_ne u.head?_path_query, takeWhile_path_query,
    String.ofList_toList]

theorem calledSegments_path : calledSegments u.path = segments u.path := by
  have h := calledSegments_path_query { u with query := "", query_start := by decide }
  rwa [String.append_empty] at h

/-- Without its path an address is read from the first slash of its query on. -/
theorem calledSegments_eq : calledSegments (u.origin ++ u.path ++ u.query) =
    if u.path = "" then calledSegments (fromSlash u.query) else segments u.path := by
  rw [origin, String.append_assoc, String.append_assoc, calledSegments_scheme u.scheme_mem,
    fromSlash_append u.host_plain.1]
  split_ifs with hp
  · rw [hp, String.empty_append]
  · have hslash : (u.path ++ u.query).toList.head? = some '/' := by
      rw [String.toList_append, List.head?_append, u.path_start.resolve_left hp, Option.some_or]
    rw [fromSlash_of_head?_eq hslash, calledSegments_path_query]

theorem isCalledBy_path_query (a : Api) :
    a.isCalledBy (u.path ++ u.query) = a.isCalledBy u.path := by
  rw [Api.isCalledBy, Api.isCalledBy, calledSegments_path_query, calledSegments_path]

/-- Scheme and host do not count in front of a path. -/
theorem isCalledBy_of_path_ne (h : u.path ≠ "") (a : Api) :
    a.isCalledBy (u.origin ++ u.path ++ u.query) = a.isCalledBy u.path := by
  rw [Api.isCalledBy, Api.isCalledBy, calledSegments_eq, if_neg h, calledSegments_path]

theorem isCalledBy_of_path_eq (h : u.path = "") (a : Api) :
    a.isCalledBy (u.origin ++ u.path ++ u.query) = a.isCalledBy (fromSlash u.query) := by
  rw [Api.isCalledBy, Api.isCalledBy, calledSegments_eq, if_pos h]

/-- The query behind a path never counts, and scheme and host do not where there is a path. Where
there is none, the route is called that the query names from its first slash on: no route tells the
address from its path just if the query names none there. -/
theorem isCalledBy_parts : (∀ a : Api, a.isCalledBy (u.path ++ u.query) = a.isCalledBy u.path) ∧
    (u.path ≠ "" → ∀ a : Api,
      a.isCalledBy (u.origin ++ u.path ++ u.query) = a.isCalledBy u.path) ∧
    (u.path = "" → ∀ a : Api,
      a.isCalledBy (u.origin ++ u.path ++ u.query) = a.isCalledBy (fromSlash u.query)) ∧
    ((∀ a : Api, a.isCalledBy (u.origin ++ u.path ++ u.query) = a.isCalledBy u.path) ↔
      u.path ≠ "" ∨ calledSegments (fromSlash u.query) = []) := by
  refine ⟨u.isCalledBy_path_query, u.isCalledBy_of_path_ne, u.isCalledBy_of_path_eq, fun h => ?_,
    fun h a => ?_⟩
  · refine or_iff_not_imp_left.2 fun hp => ?_
    have hroot := h { route := "" }
    rw [u.isCalledBy_of_path_eq (not_not.1 hp), not_not.1 hp, isCalledBy_root,
      isCalledBy_root] at hroot
    exact List.isEmpty_iff.1 (hroot.trans (by decide))
  · by_cases hp : u.path = ""
    · have hnil := h.resolve_left (not_not.2 hp)
      rw [u.isCalledBy_of_path_eq hp, hp, Api.isCalledBy, Api.isCalledBy, hnil]
      rfl
    · exact u.isCalledBy_of_path_ne hp a

/-- The address of users, with a slash in its query. -/
def users : Address where
  scheme := "https://"
  host := "shop.example"
  path := "/api/users"
  query := "?next=/orders"

/-- An address without a path whose query names one. -/
def landing : Address where
  scheme := "http://"
  host := "shop.example"
  query := "?next=/api/users"

theorem isCalledBy_users : users.path ≠ "" ∧ landing.path = "" ∧
    ({ route := "/api/[name]" } : Api).isCalledBy (users.origin ++ users.path ++ users.query) ∧
    ({ route := "/api/[name]" } : Api).isCalledBy
      (landing.origin ++ landing.path ++ landing.query) :=
  ⟨by decide, rfl, (users.isCalledBy_parts.2.1 (by decide) _).trans (by decide),
    (landing.isCalledBy_parts.2.2.1 rfl _).trans (by decide)⟩

/-- A query may change what an address calls. -/
theorem isCalledBy_landing : landing.origin ++ landing.path ++ landing.query =
      "http://shop.example?next=/api/users" ∧
    ({ route := "/api/users" } : Api).isCalledBy (landing.origin ++ landing.path ++ landing.query) ∧
    ¬({ route := "/api/users" } : Api).isCalledBy landing.path := by
  decide

end Address

/-! ## Choice of a route -/

/-- No segment of the route is dynamic. -/
def Api.IsStatic (a : Api) : Prop :=
  ∀ d ∈ segments a.route, RouteParam.ofSegment? d = none

instance (a : Api) : Decidable a.IsStatic :=
  inferInstanceAs (Decidable (∀ d ∈ segments a.route, RouteParam.ofSegment? d = none))

theorem segmentsMatch_self {ds : List String} (h : ∀ d ∈ ds, RouteParam.ofSegment? d = none) :
    segmentsMatch ds ds = true := by
  induction ds with
  | nil => rfl
  | cons d ds ih =>
    obtain ⟨hd, hds⟩ := List.forall_mem_cons.1 h
    rw [segmentsMatch, hd]
    simp [ih hds]

/-- A route without dynamic segments fits its own path. -/
theorem Api.IsStatic.isCalledBy {a : Api} (h : a.IsStatic) {url : String}
    (hurl : calledSegments url = segments a.route) : a.isCalledBy url = true := by
  rw [Api.isCalledBy, hurl, segmentsMatch_self h]

theorem Api.isCalledBy_congr {a b : Api} (h : a.route = b.route) (url : String) :
    a.isCalledBy url = b.isCalledBy url := by
  rw [Api.isCalledBy, Api.isCalledBy, h]

theorem Api.isCalledBy_of_find? {apis : List Api} {url : String} {a : Api}
    (h : apis.find? (·.isCalledBy url) = some a) : a.isCalledBy url = true := by
  simpa using List.find?_some h

theorem Api.find?_cons_of_isCalledBy {a : Api} {url : String} (h : a.isCalledBy url = true)
    (apis : List Api) : (a :: apis).find? (·.isCalledBy url) = some a :=
  List.find?_cons_of_pos (p := fun b : Api => b.isCalledBy url) h

theorem Api.entity_inj {a b : Api} : a.entity = b.entity ↔ a.route = b.route := by
  simp [Api.entity]

namespace Project

variable {p : Project}

/-- The relations of pages to the routes that they call. -/
def calls (p : Project) : List Relation :=
  p.graph.relations.filter (·.kind = .calls)

/-- An address is related to the first route that it calls. -/
theorem calls_eq (p : Project) : p.calls = p.pages.flatMap fun q =>
    q.apis.filterMap fun url => ((p.calledApi? url).map (·.entity)).map fun target =>
      ⟨q.entity, target, .calls, some url⟩ := by
  have huses : ∀ (source : Entity) (names : List String),
      ((p.known names).map (useRelation source)).filter (·.kind = .calls) = [] := by
    intro source names
    exact List.filter_eq_nil_iff.2 (List.forall_mem_map.2 fun n _ => by simp [useRelation])
  have hcalls : ∀ q : Page, (q.apis.filterMap fun url => (p.calledApi? url).map fun a =>
      (⟨q.entity, a.entity, .calls, some url⟩ : Relation)).filter (·.kind = .calls) =
        q.apis.filterMap fun url => ((p.calledApi? url).map (·.entity)).map fun target =>
          ⟨q.entity, target, .calls, some url⟩ := fun q => by
    simp only [Option.map_map]
    refine List.filter_eq_self.2 fun r hr => ?_
    obtain ⟨url, -, hurl⟩ := List.mem_filterMap.1 hr
    obtain ⟨a, -, rfl⟩ := Option.map_eq_some_iff.1 hurl
    rfl
  rw [calls, p.usages_shown.relations, usages, List.map_append, List.map_flatMap, List.map_flatMap,
    List.filter_append, List.filter_flatMap, List.filter_flatMap]
  simp only [Component.relation_usages, Page.relation_usages, List.filter_append, huses, hcalls,
    List.nil_append]
  simp

theorem mem_calls_iff {r : Relation} : r ∈ p.calls ↔ ∃ q ∈ p.pages, ∃ url ∈ q.apis, ∃ a,
    p.calledApi? url = some a ∧ r = ⟨q.entity, a.entity, .calls, some url⟩ := by
  simp only [calls_eq, List.mem_flatMap, List.mem_filterMap, Option.map_map,
    Option.map_eq_some_iff, Function.comp_apply, @eq_comm _ r]

/-- A route without dynamic segments is called under its own path, or one listed before it is. -/
theorem calledApi?_of_isStatic {s : Api} (hs : s ∈ p.apis) (hstatic : s.IsStatic) {url : String}
    (hurl : calledSegments url = segments s.route) : ∃ a, p.calledApi? url = some a ∧
      (a.entity = s.entity ↔ ∀ b ∈ p.apis.takeWhile (·.route ≠ s.route), ¬b.isCalledBy url) := by
  rw [calledApi?, ← List.takeWhile_append_dropWhile (p := (·.route ≠ s.route)) (l := p.apis),
    List.find?_append, List.takeWhile_append_dropWhile]
  cases hbefore : (p.apis.takeWhile (·.route ≠ s.route)).find? (·.isCalledBy url) with
  | some b =>
    have hb := List.mem_of_find?_eq_some hbefore
    have hne : b.route ≠ s.route := by simpa using List.mem_takeWhile_imp hb
    exact ⟨b, rfl, iff_of_false (Api.entity_inj.not.2 hne) fun h =>
      h b hb (Api.isCalledBy_of_find? hbefore)⟩
  | none =>
    obtain ⟨a, r, hr⟩ : ∃ a r, p.apis.dropWhile (·.route ≠ s.route) = a :: r := by
      refine List.exists_cons_of_ne_nil fun hnil => ?_
      simpa using List.dropWhile_eq_nil_iff.1 hnil s hs
    have hroute : a.route = s.route := by
      have h := List.head?_dropWhile_not (·.route ≠ s.route) p.apis
      rw [hr] at h
      simpa using h
    have hcalled : a.isCalledBy url = true :=
      (Api.isCalledBy_congr hroute url).trans (hstatic.isCalledBy hurl)
    refine ⟨a, ?_, iff_of_true (Api.entity_inj.2 hroute) ?_⟩
    · rw [Option.none_or, hr, Api.find?_cons_of_isCalledBy hcalled]
    · simpa using List.find?_eq_none.1 hbefore

/-- All routes that fit an address are the same. -/
def Agrees (p : Project) (url : String) : Prop :=
  ∀ a ∈ p.apis, ∀ b ∈ p.apis, a.isCalledBy url → b.isCalledBy url → a.route = b.route

theorem calledApi?_of_perm {url : String} (h : p.Agrees url) {apis : List Api}
    (hperm : apis.Perm p.apis) : (({ p with apis } : Project).calledApi? url).map (·.entity) =
      (p.calledApi? url).map (·.entity) := by
  cases hfirst : p.calledApi? url with
  | none =>
    have hnone : ∀ a ∈ apis, ¬a.isCalledBy url := fun a ha =>
      List.find?_eq_none.1 hfirst a (hperm.mem_iff.1 ha)
    rw [calledApi?, List.find?_eq_none.2 hnone]
  | some a =>
    have ha := calledApi?_mem hfirst
    have hcalled := Api.isCalledBy_of_find? hfirst
    obtain ⟨b, hb⟩ : ∃ b, apis.find? (·.isCalledBy url) = some b :=
      Option.isSome_iff_exists.1 (List.find?_isSome.2 ⟨a, hperm.mem_iff.2 ha, hcalled⟩)
    rw [calledApi?, hb, Option.map_some, Option.map_some, Api.entity_inj.2]
    exact h b (hperm.mem_iff.1 (List.mem_of_find?_eq_some hb)) a ha
      (Api.isCalledBy_of_find? hb) hcalled

/-- The relations are the same in every order of the routes just if on no page an address is called
that different routes fit. -/
theorem calls_perm_iff : (∀ apis : List Api, apis.Perm p.apis →
      ({ p with apis } : Project).calls = p.calls) ↔
    ∀ q ∈ p.pages, ∀ url ∈ q.apis, p.Agrees url := by
  constructor
  · intro h q hq url hurl a ha b hb hacalled hbcalled
    -- Each of the two routes is called where it is listed first.
    have hfirst : ∀ {c : Api} (l : List Api), c.isCalledBy url →
        ({ p with apis := c :: l } : Project).calledApi? url = some c := fun l hc =>
      Api.find?_cons_of_isCalledBy hc l
    have hmem : (⟨q.entity, a.entity, .calls, some url⟩ : Relation) ∈ p.calls := by
      rw [← h _ (List.perm_cons_erase ha).symm]
      exact mem_calls_iff.2 ⟨q, hq, url, hurl, a, hfirst _ hacalled, rfl⟩
    rw [← h _ (List.perm_cons_erase hb).symm] at hmem
    obtain ⟨q', -, url', -, b', hb', heq⟩ := mem_calls_iff.1 hmem
    obtain ⟨-, hentity, -, hlabel⟩ := Relation.mk.inj heq
    obtain rfl := Option.some.inj hlabel
    obtain rfl := Option.some.inj ((hfirst _ hbcalled).symm.trans hb')
    exact Api.entity_inj.1 hentity
  · intro h apis hperm
    rw [calls_eq, calls_eq]
    refine List.flatMap_congr fun q hq => List.filterMap_congr fun url hurl => ?_
    rw [calledApi?_of_perm (h q hq url hurl) hperm]

/-- The routes that addresses are related to. -/
structure ChoosesFirst (p : Project) : Prop where
  first : p.calls = p.pages.flatMap fun q =>
    q.apis.filterMap fun url => ((p.apis.find? (·.isCalledBy url)).map (·.entity)).map fun target =>
      ⟨q.entity, target, .calls, some url⟩
  ownPath : ∀ s ∈ p.apis, s.IsStatic → ∀ url, calledSegments url = segments s.route →
    ∃ a, p.apis.find? (·.isCalledBy url) = some a ∧
      (a.entity = s.entity ↔ ∀ b ∈ p.apis.takeWhile (·.route ≠ s.route), ¬b.isCalledBy url)
  order : (∀ apis : List Api, apis.Perm p.apis → ({ p with apis } : Project).calls = p.calls) ↔
    ∀ q ∈ p.pages, ∀ url ∈ q.apis, p.Agrees url

/-- The first route that fits is called. -/
theorem calls_chosen (p : Project) : p.ChoosesFirst :=
  ⟨p.calls_eq, fun _ hs hstatic _ hurl => calledApi?_of_isStatic hs hstatic hurl, calls_perm_iff⟩

/-- A page that calls a route, which is listed behind another one that fits too. -/
def overlapping : Project where
  pages := [{ route := "/", path := "app/page.tsx", apis := ["/api/users"] }]
  apis := [{ route := "/api/[id]" }, { route := "/api/users" }]

/-- The relation of that page to a route. -/
def overlapping.call (route : String) : Relation :=
  ⟨{ kind := .page, name := "/" }, { kind := .api, name := route }, .calls, some "/api/users"⟩

theorem overlapping_chosen : ({ route := "/api/users" } : Api) ∈ overlapping.apis ∧
    ({ route := "/api/users" } : Api).IsStatic ∧
    calledSegments "/api/users" = segments "/api/users" ∧
    ∃ a, overlapping.apis.find? (·.isCalledBy "/api/users") = some a :=
  have hmem : ({ route := "/api/users" } : Api) ∈ overlapping.apis := by decide
  have hstatic : ({ route := "/api/users" } : Api).IsStatic := by decide
  have hurl : calledSegments "/api/users" = segments "/api/users" := by decide
  have hchosen := overlapping.calls_chosen.ownPath _ hmem hstatic _ hurl
  ⟨hmem, hstatic, hurl, hchosen.imp fun _ => And.left⟩

/-- A route without dynamic segments is not called under its own path, and which one is depends on
their order. -/
theorem calls_overlapping : ({ route := "/api/users" } : Api) ∈ overlapping.apis ∧
    ({ route := "/api/users" } : Api).IsStatic ∧
    calledSegments "/api/users" = segments "/api/users" ∧
    overlapping.calls = [overlapping.call "/api/[id]"] ∧
    ({ overlapping with apis := overlapping.apis.reverse } : Project).calls =
      [overlapping.call "/api/users"] := by
  decide +kernel

end Project

end Atlas.Nextjs
