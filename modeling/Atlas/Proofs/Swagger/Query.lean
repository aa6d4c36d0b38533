import Atlas.Proofs.Text
import Atlas.Swagger.Http

/-!
# The query of a request

The parameters of the query stand in the line of a request behind a question mark, each with a text
for its value, and with an ampersand between them. Nothing is encoded. A reader who cuts there
(`decodedQuery`) finds the parameters again just if no text of a value has an ampersand in it, and
no line feed, which ends the line (`Endpoint.query_decoded`).
-/

set_option linter.unusedSectionVars false

namespace Atlas.Swagger

/-- The name of a parameter that stands for itself in a query. -/
def PlainName (name : String) : Prop :=
  ∀ c ∈ name.toList, c ≠ '&' ∧ c ≠ '=' ∧ c ≠ '#' ∧ Chars.isBlank c = false

instance (name : String) : Decidable (PlainName name) :=
  decidable_of_iff
    (name.toList.all fun c => c != '&' && c != '=' && c != '#' && !Chars.isBlank c)
    (by simp [PlainName, and_assoc])

/-- The text for the value of a parameter: a text that the description shows as it is, another value
in JSON, or a place for a value. -/
def Parameter.queryText (p : Parameter) : String :=
  match p.sample.or (p.schema.bind (·.sample)) with
  | some (.text s) => s
  | some d => d.toJson
  | none => "\x7b\x7b" ++ p.name ++ "\x7d\x7d"

theorem Parameter.queryPart_eq (p : Parameter) : p.queryPart = p.name ++ "=" ++ p.queryText := by
  have hplace : "=\x7b\x7b" = "=" ++ "\x7b\x7b" := rfl
  unfold queryPart queryText
  rcases p.sample.or (p.schema.bind (·.sample)) with _ | _ | _ | _ | s | _ | _
  all_goals simp only [hplace, String.append_assoc]

/-! ## Reading a query -/

/-- The pieces between ampersands, each cut at its first equals sign if it has one. -/
def readQuery (query : String) : List (Option (String × String)) :=
  (Text.splitOn '&' query).map (Text.cut? "=")

/-- The pieces of what follows the first question mark of a line. -/
def decodedQuery (line : String) : List (Option (String × String)) :=
  match Text.cut? "?" line with
  | some (_, query) => readQuery query
  | none => []

section Read

variable {query name value line : String}

theorem mem_splitOn_of_mem_readQuery (h : some (name, value) ∈ readQuery query) :
    name ++ "=" ++ value ∈ Text.splitOn '&' query := by
  obtain ⟨piece, hpiece, hcut⟩ := List.mem_map.1 h
  rwa [((Text.cut?_eq_some_iff rfl).1 hcut).1] at hpiece

/-- No value that is read has an ampersand in it. -/
theorem ampersand_notMem_of_mem_readQuery (h : some (name, value) ∈ readQuery query) :
    '&' ∉ value.toList := by
  have hpiece := Text.notMem_of_mem_splitOn (mem_splitOn_of_mem_readQuery h)
  rw [String.toList_append, List.mem_append, not_or] at hpiece
  exact hpiece.2

/-- What stands in a value that is read stands in the query. -/
theorem isInfix_of_mem_readQuery (h : some (name, value) ∈ readQuery query) :
    value.toList <:+: query.toList :=
  (Text.isSuffix_append _ value).isInfix.trans
    (Text.isInfix_of_mem_splitOn (mem_splitOn_of_mem_readQuery h))

/-- What is decoded from a line is read from a query in it. -/
theorem exists_of_mem_decodedQuery {entry : Option (String × String)}
    (h : entry ∈ decodedQuery line) :
    ∃ query, query.toList <:+: line.toList ∧ entry ∈ readQuery query := by
  unfold decodedQuery at h
  split at h
  · rename_i start query hcut
    refine ⟨query, ?_, h⟩
    rw [((Text.cut?_eq_some_iff rfl).1 hcut).1, String.toList_append]
    exact (List.suffix_append _ _).isInfix
  · cases h

end Read

namespace Endpoint

variable (e : Endpoint)

/-- The parameters of the query. -/
def queryParameters : List Parameter := e.parameters.filter (·.location == "query")

/-- The parameters of the query with the texts of their values. -/
def queryEntries : List (Option (String × String)) :=
  e.queryParameters.map fun p => some (p.name, p.queryText)

/-- What a request asks for, without the query. -/
def target : String := e.verb.upper ++ " \x7b\x7bbaseUrl\x7d\x7d" ++ e.path

/-- What a request asks for. -/
def requestText : String := e.target ++ if e.query = "" then "" else "?" ++ e.query

/-- The line of a request: what it asks for, up to the first line feed. -/
def requestLine : String := (Text.splitOn '\n' e.requestText).headD ""

variable {e}

theorem query_eq : e.query = "&".intercalate (e.queryParameters.map Parameter.queryPart) := rfl

theorem query_eq_empty_iff : e.query = "" ↔ e.queryParameters = [] := by
  have hpart : ∀ p : Parameter, p.queryPart ≠ "" := fun p => by
    rw [p.queryPart_eq, ne_eq, String.append_eq_empty_iff, String.append_eq_empty_iff]
    exact fun h => absurd h.1.2 (by decide)
  rw [query_eq]
  match e.queryParameters with
  | [] => exact iff_of_true rfl rfl
  | [p] => exact iff_of_false (hpart p) (List.cons_ne_nil _ _)
  | p :: q :: ps =>
    refine iff_of_false (fun h => ?_) (List.cons_ne_nil _ _)
    rw [List.map_cons, List.map_cons, String.intercalate_cons_cons, String.append_eq_empty_iff,
      String.append_eq_empty_iff] at h
    exact hpart p h.1.1

theorem requestText_eq :
    e.requestText = e.target ++ if e.queryParameters = [] then "" else "?" ++ e.query := by
  simp only [requestText, query_eq_empty_iff]

/-- What is asked for stands behind the name of the request. -/
theorem requestLines_eq (spec : Spec) (e : Endpoint) : ∃ before after,
    e.requestLines spec = before ++ ("# @name " ++ e.name) :: e.requestText :: after := by
  unfold requestLines
  simp only [List.append_assoc, List.cons_append]
  exact ⟨_, _, rfl⟩

/-! ## Decoding -/

/-- Where no value has an ampersand in it, the pieces of the query are its parameters. -/
theorem readQuery_query (hnames : ∀ p ∈ e.queryParameters, PlainName p.name)
    (hne : e.queryParameters ≠ [])
    (h : ∀ p ∈ e.queryParameters, '&' ∉ p.queryText.toList) :
    readQuery e.query = e.queryEntries := by
  have hpiece : ∀ p ∈ e.queryParameters, Text.splitOn '&' p.queryPart = [p.queryPart] := by
    intro p hp
    refine Text.splitOn_of_char_notMem ?_
    simpa [p.queryPart_eq, h p hp] using fun hc => (hnames p hp _ hc).1 rfl
  have hcut : ∀ p ∈ e.queryParameters, Text.cut? "=" p.queryPart = some (p.name, p.queryText) := by
    intro p hp
    exact (Text.cut?_eq_some_iff rfl).2 ⟨p.queryPart_eq, fun hc => (hnames p hp _ hc).2.1 rfl⟩
  rw [readQuery, query_eq, Text.splitOn_intercalate rfl (by simpa using hne), List.flatMap_map,
    List.flatMap_congr hpiece, ← List.map_eq_flatMap, queryEntries, List.map_map]
  exact List.map_congr_left hcut

theorem readQuery_query_iff (hnames : ∀ p ∈ e.queryParameters, PlainName p.name)
    (hne : e.queryParameters ≠ []) : readQuery e.query = e.queryEntries ↔
      ∀ p ∈ e.queryParameters, '&' ∉ p.queryText.toList := by
  refine ⟨fun h p hp => ?_, readQuery_query hnames hne⟩
  have hentry : some (p.name, p.queryText) ∈ readQuery e.query := h ▸ List.mem_map_of_mem hp
  exact ampersand_notMem_of_mem_readQuery hentry

theorem feed_notMem_requestLine : '\n' ∉ e.requestLine.toList := by
  unfold requestLine
  cases hlines : Text.splitOn '\n' e.requestText with
  | nil => exact List.not_mem_nil
  | cons line lines =>
    exact Text.notMem_of_mem_splitOn (hlines ▸ List.mem_cons_self)

section Line

variable (hnames : ∀ p ∈ e.queryParameters, PlainName p.name)
  (hmark : '?' ∉ e.path.toList) (hfeed : '\n' ∉ e.path.toList)

include hmark in
theorem decodedQuery_requestText : decodedQuery e.requestText =
    if e.queryParameters = [] then [] else readQuery e.query := by
  have htarget : '?' ∉ e.target.toList := by
    have hverb : '?' ∉ e.verb.upper.toList := by cases e.verb <;> decide
    simp [target, hmark, hverb]
  rw [requestText_eq, decodedQuery]
  split_ifs with h
  · have hnone : Text.cut? "?" (e.target ++ "") = none := by
      rw [String.append_empty, Text.cut?, Option.map_eq_none_iff]
      exact Chars.cut?_singleton_eq_none.2 htarget
    rw [hnone]
  · have hcut : Text.cut? "?" (e.target ++ ("?" ++ e.query)) = some (e.target, e.query) :=
      (Text.cut?_eq_some_iff rfl).2 ⟨String.append_assoc.symm, htarget⟩
    rw [hcut]

include hnames hfeed in
/-- Where no value has a line feed in it, the line says all that is asked for. -/
theorem requestLine_eq (h : ∀ p ∈ e.queryParameters, '\n' ∉ p.queryText.toList) :
    e.requestLine = e.requestText := by
  have htarget : '\n' ∉ e.target.toList := by
    have hverb : '\n' ∉ e.verb.upper.toList := by cases e.verb <;> decide
    simp [target, hfeed, hverb]
  have hpart : ∀ p ∈ e.queryParameters, '\n' ∉ p.queryPart.toList := fun p hp => by
    have hname : '\n' ∉ p.name.toList := fun hc => by
      cases (hnames p hp _ hc).2.2.2
    simp [p.queryPart_eq, hname, h p hp]
  have hquery : '\n' ∉ e.query.toList :=
    Text.char_notMem_intercalate (by decide) (List.forall_mem_map.2 hpart)
  have htext : '\n' ∉ e.requestText.toList := by
    rw [requestText_eq]
    split_ifs <;> simp [htarget, hquery]
  rw [requestLine, Text.splitOn_of_char_notMem htext, List.headD_cons]

include hnames hmark hfeed in
theorem decodedQuery_requestLine_iff : decodedQuery e.requestLine = e.queryEntries ↔
    ∀ p ∈ e.queryParameters, '&' ∉ p.queryText.toList ∧ '\n' ∉ p.queryText.toList := by
  constructor
  · intro h p hp
    have hentry : some (p.name, p.queryText) ∈ decodedQuery e.requestLine :=
      h ▸ List.mem_map_of_mem hp
    obtain ⟨query, hquery, hread⟩ := exists_of_mem_decodedQuery hentry
    exact ⟨ampersand_notMem_of_mem_readQuery hread, fun hc => feed_notMem_requestLine
      (hquery.subset ((isInfix_of_mem_readQuery hread).subset hc))⟩
  · intro h
    rw [requestLine_eq hnames hfeed fun p hp => (h p hp).2, decodedQuery_requestText hmark]
    split_ifs with hne
    · rw [queryEntries, hne, List.map_nil]
    · exact readQuery_query hnames hne fun p hp => (h p hp).1

end Line

/-- The line of a request says what is asked for. It stands behind the name of the request, and the
query stands in it behind the path and a question mark if there are parameters for it. A reader of
the query finds just the parameters if and only if no text of a value has an ampersand in it. If the
path has no question mark and no line feed in it, a reader of the line finds just them if and only
if no text of a value has an ampersand or a line feed in it. -/
theorem query_decoded (spec : Spec) (e : Endpoint)
    (hnames : ∀ p ∈ e.queryParameters, PlainName p.name) :
    (∃ before after,
      e.requestLines spec = before ++ ("# @name " ++ e.name) :: e.requestText :: after) ∧
    (e.requestText = e.target ++ if e.queryParameters = [] then "" else "?" ++ e.query) ∧
    (e.queryParameters ≠ [] → (readQuery e.query = e.queryEntries ↔
      ∀ p ∈ e.queryParameters, '&' ∉ p.queryText.toList)) ∧
    ('?' ∉ e.path.toList → '\n' ∉ e.path.toList →
      (decodedQuery e.requestLine = e.queryEntries ↔
        ∀ p ∈ e.queryParameters, '&' ∉ p.queryText.toList ∧ '\n' ∉ p.queryText.toList)) := by
  exact ⟨requestLines_eq spec e, requestText_eq, readQuery_query_iff hnames,
    decodedQuery_requestLine_iff hnames⟩

/-- A request for orders, with parameters whose values are shown in several ways. -/
def searchOrders (sample : String) : Endpoint where
  verb := .get
  path := "/orders"
  operation := {}
  shared :=
    [{ name := "page", location := "query", sample := some (.nat 2) },
      { name := "q", location := "query", sample := some (.text sample) },
      { name := "sort", location := "query" }, { name := "X-Shop", location := "header" }]

theorem query_decoded_searchOrders :
    (∀ p ∈ (searchOrders "a=b c").queryParameters, PlainName p.name) ∧
    (searchOrders "a=b c").requestLine =
      "GET \x7b\x7bbaseUrl\x7d\x7d/orders?page=2&q=a=b c&sort=\x7b\x7bsort\x7d\x7d" ∧
    decodedQuery (searchOrders "a=b c").requestLine =
      [some ("page", "2"), some ("q", "a=b c"), some ("sort", "\x7b\x7bsort\x7d\x7d")] := by
  have hnames : ∀ p ∈ (searchOrders "a=b c").queryParameters, PlainName p.name := by
    decide +kernel
  obtain ⟨-, -, -, hline⟩ := query_decoded {} (searchOrders "a=b c") hnames
  refine ⟨hnames, by decide +kernel, ?_⟩
  rw [(hline (by decide) (by decide)).2 (by decide +kernel)]
  decide +kernel

/-- An ampersand in a value cuts it in two. -/
theorem ampersand_not_decoded :
    (∀ p ∈ (searchOrders "a&b").queryParameters, PlainName p.name) ∧
    (searchOrders "a&b").queryEntries =
      [some ("page", "2"), some ("q", "a&b"), some ("sort", "\x7b\x7bsort\x7d\x7d")] ∧
    decodedQuery (searchOrders "a&b").requestLine =
      [some ("page", "2"), some ("q", "a"), none, some ("sort", "\x7b\x7bsort\x7d\x7d")] ∧
    decodedQuery (searchOrders "a&b").requestLine ≠ (searchOrders "a&b").queryEntries := by
  decide +kernel

end Endpoint

end Atlas.Swagger
