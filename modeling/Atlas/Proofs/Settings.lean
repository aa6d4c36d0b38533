import Atlas.Proofs.Files.Clean
import Atlas.Proofs.Result
import Atlas.Settings

/-!
# Checked settings

Settings pass validation just if they are valid (`Settings.Valid`), and come out with what is empty
filled in (`Settings.validate_eq_ok_iff`). Settings that are read have passed it, and pass it again
unchanged (`Settings.validate_of_read`).

The paths of settings that are read are cleaned paths. The directory for request files is left as it
is written (`Settings.paths_cleaned`).
-/

set_option linter.unusedSectionVars false

namespace Atlas

/-- All that is needed to reach a database is there. -/
structure Connection.Valid (c : Connection) : Prop where
  name : c.name ≠ ""
  type : (DatabaseType.ofCode? c.type).isSome
  host : c.host ≠ ""
  port : c.port ≠ 0
  database : c.database ≠ ""

/-- The settings for the output with the standard directory if they name none. -/
def OutputSettings.filled (o : OutputSettings) : OutputSettings :=
  if o.path = "" then { o with path := "./docs" } else o

/-- The settings for Go code with the standard level if they are used and name none. -/
def GoSettings.filled (g : GoSettings) : GoSettings :=
  if g.enabled ∧ g.reportLevel = "" then { g with reportLevel := ReportLevel.standard.code } else g

@[simp] theorem OutputSettings.format_filled (o : OutputSettings) : o.filled.format = o.format := by
  unfold filled
  split_ifs <;> rfl

theorem OutputSettings.filled_of_path_ne {o : OutputSettings} (h : o.path ≠ "") : o.filled = o :=
  if_neg h

@[simp] theorem GoSettings.enabled_filled (g : GoSettings) : g.filled.enabled = g.enabled := by
  unfold filled
  split_ifs <;> rfl

@[simp] theorem GoSettings.paths_filled (g : GoSettings) : g.filled.paths = g.paths := by
  unfold filled
  split_ifs <;> rfl

theorem GoSettings.reportLevel_filled {g : GoSettings} (h : g.enabled) :
    g.filled.reportLevel ≠ "" := by
  unfold filled
  split_ifs with hlevel
  · change ReportLevel.standard.code ≠ ""
    decide
  · exact fun he => hlevel ⟨h, he⟩

theorem GoSettings.isSome_ofCode?_filled {g : GoSettings} (h : g.enabled)
    (hlevel : g.reportLevel = "" ∨ (ReportLevel.ofCode? g.reportLevel).isSome) :
    (ReportLevel.ofCode? g.filled.reportLevel).isSome := by
  unfold filled
  split_ifs with hempty
  · rfl
  · exact hlevel.resolve_left fun he => hempty ⟨h, he⟩

namespace Settings

/-! ## Validation -/

/-- The settings with what is empty filled in. -/
def filled (s : Settings) : Settings :=
  { s with output := s.output.filled, golang := s.golang.filled }

/-- All that is needed is there, and every word has a meaning. -/
structure Valid (s : Settings) : Prop where
  format : (OutputFormat.ofCode? s.output.format).isSome
  enabled : s.anyEnabled
  sources : s.golang.enabled → s.golang.paths ≠ []
  level : s.golang.enabled → s.golang.reportLevel = "" ∨
    (ReportLevel.ofCode? s.golang.reportLevel).isSome
  manifests : s.kubernetes.enabled → s.kubernetes.paths ≠ []
  connections : s.databases.enabled → s.databases.connections ≠ []
  connection : s.databases.enabled → ∀ c ∈ s.databases.connections, c.Valid
  description : s.swagger.enabled → s.swagger.file ≠ ""

section Validate

variable {s v : Settings}

theorem require_eq_ok_iff {holds : Bool} {message : String} {u : Unit} :
    require holds message = .ok u ↔ holds = true := by
  cases holds <;> simp [require]

theorem validateConnection_eq_ok_iff {c : Connection} {u : Unit} :
    validateConnection c = .ok u ↔ c.Valid := by
  simp only [validateConnection, bind_eq_ok_iff, require_eq_ok_iff, exists_const]
  constructor
  · rintro ⟨hname, htype, hhost, hport, hdatabase⟩
    exact ⟨by simpa using hname, htype, by simpa using hhost, by simpa using hport,
      by simpa using hdatabase⟩
  · intro h
    exact ⟨by simpa using h.name, h.type, by simpa using h.host, by simpa using h.port,
      by simpa using h.database⟩

theorem forM_validateConnection_eq_ok_iff {cs : List Connection} {u : Unit} :
    cs.forM validateConnection = .ok u ↔ ∀ c ∈ cs, c.Valid := by
  induction cs with
  | nil => exact iff_of_true rfl (List.forall_mem_nil _)
  | cons c cs ih =>
    change (validateConnection c >>= fun _ => cs.forM validateConnection) = _ ↔ _
    simp only [bind_eq_ok_iff, validateConnection_eq_ok_iff, ih, exists_const, List.forall_mem_cons]

theorem validateDatabases_eq_ok_iff {d : DatabaseSettings} {u : Unit} :
    validateDatabases d = .ok u ↔
      (d.enabled = true → d.connections ≠ [] ∧ ∀ c ∈ d.connections, c.Valid) := by
  unfold validateDatabases
  cases d.enabled with
  | false => exact iff_of_true rfl nofun
  | true =>
    rw [if_neg (by decide)]
    simp only [bind_eq_ok_iff, require_eq_ok_iff, forM_validateConnection_eq_ok_iff, exists_const]
    simp

theorem validateGolang_eq_ok_iff {g g' : GoSettings} : validateGolang g = .ok g' ↔
    (g.enabled = true → g.paths ≠ [] ∧
      (g.reportLevel = "" ∨ (ReportLevel.ofCode? g.reportLevel).isSome)) ∧ g.filled = g' := by
  unfold validateGolang GoSettings.filled
  cases henabled : g.enabled with
  | false => simp [pure, Except.pure]
  | true =>
    by_cases hlevel : g.reportLevel = ""
    · simp [hlevel, bind_eq_ok_iff, require_eq_ok_iff, pure, Except.pure, ReportLevel.ofCode?_code]
    · simp [hlevel, bind_eq_ok_iff, require_eq_ok_iff, pure, Except.pure, and_assoc]

theorem outputFormat_eq_ok_iff {f : OutputFormat} :
    s.outputFormat = .ok f ↔ OutputFormat.ofCode? s.output.format = some f := by
  unfold outputFormat
  cases OutputFormat.ofCode? s.output.format <;> simp

/-- Settings pass just if they are valid, and come out with what is empty filled in. -/
theorem validate_eq_ok_iff : s.validate = .ok v ↔ s.Valid ∧ s.filled = v := by
  have hfilled : (if s.output.path.isEmpty = true
      then { s with output := { s.output with path := "./docs" } } else s) =
        { s with output := s.output.filled } := by
    unfold OutputSettings.filled
    by_cases hpath : s.output.path = "" <;> simp [hpath]
  unfold validate
  simp only [hfilled, bind_eq_ok_iff, require_eq_ok_iff, outputFormat_eq_ok_iff,
    validateGolang_eq_ok_iff, validateDatabases_eq_ok_iff, exists_const, pure, Except.pure,
    Except.ok.injEq]
  constructor
  · rintro ⟨-, f, hformat, henabled, golang, ⟨hgo, rfl⟩, hmanifests, hdatabases, hfile, rfl⟩
    refine ⟨⟨?_, henabled, fun h => (hgo h).1, fun h => (hgo h).2, fun h => ?_,
      fun h => (hdatabases h).1, fun h => (hdatabases h).2, fun h => ?_⟩, rfl⟩
    · rw [hformat]
      rfl
    · simpa [h] using hmanifests
    · simpa [h] using hfile
  · rintro ⟨h, rfl⟩
    obtain ⟨f, hformat⟩ := Option.isSome_iff_exists.1 h.format
    refine ⟨?_, f, hformat, h.enabled, _, ⟨fun he => ⟨h.sources he, h.level he⟩, rfl⟩, ?_,
      fun he => ⟨h.connections he, h.connection he⟩, ?_, rfl⟩
    · have hempty : s.output.format ≠ "" := fun he => by
        rw [he] at hformat
        cases hformat
      simpa using hempty
    · cases he : s.kubernetes.enabled with
      | false => rfl
      | true => simpa using h.manifests he
    · cases he : s.swagger.enabled with
      | false => rfl
      | true => simpa using h.description he

end Validate

/-! ## Cleaned settings -/

section Clean

variable {s v : Settings}

/-- The paths that are cleaned. -/
def cleanedPaths (s : Settings) : List String :=
  [s.output.path] ++ s.golang.paths ++ s.kubernetes.paths ++
    [s.docker.path, s.laravel.path, s.nextjs.path] ++
    if s.swagger.file = "" then [] else [s.swagger.file]

/-- All paths: those that are cleaned, and the directory for request files. -/
def allPaths (s : Settings) : List String := s.cleanedPaths ++ [s.swagger.output]

theorem swagger_clean (s : Settings) : s.clean.swagger =
    if s.swagger.file = "" then s.swagger
      else { s.swagger with file := Path.clean s.swagger.file } := by
  by_cases hfile : s.swagger.file = "" <;> simp [clean, hfile]

theorem file_clean_eq_empty_iff : s.clean.swagger.file = "" ↔ s.swagger.file = "" := by
  rw [swagger_clean]
  split_ifs with hfile
  · exact Iff.rfl
  · exact iff_of_false (Path.clean_ne_empty _) hfile

theorem cleanedPaths_clean (s : Settings) :
    s.clean.cleanedPaths = s.cleanedPaths.map Path.clean := by
  have hfile : (if s.clean.swagger.file = "" then [] else [s.clean.swagger.file]) =
      (if s.swagger.file = "" then [] else [s.swagger.file]).map Path.clean := by
    by_cases h : s.swagger.file = "" <;> simp [clean, h, Path.clean_ne_empty]
  simp only [cleanedPaths, hfile, List.map_append]
  rfl

theorem output_clean (s : Settings) : s.clean.swagger.output = s.swagger.output := by
  rw [swagger_clean]
  split_ifs <;> rfl

theorem enabled_clean (s : Settings) : s.clean.swagger.enabled = s.swagger.enabled := by
  rw [swagger_clean]
  split_ifs <;> rfl

theorem anyEnabled_clean_filled (s : Settings) : s.filled.clean.anyEnabled = s.anyEnabled := by
  rw [anyEnabled, enabled_clean]
  simp [anyEnabled, clean, cleanProject, filled]

/-- Valid settings stay valid when they are filled in and cleaned. -/
theorem Valid.clean_filled (h : s.Valid) : s.filled.clean.Valid where
  format := by simpa [clean, filled] using h.format
  enabled := by rw [anyEnabled_clean_filled, h.enabled]
  sources := by simpa [clean, filled] using h.sources
  level := by
    have hlevel := fun he : s.golang.enabled => GoSettings.isSome_ofCode?_filled he (h.level he)
    simpa [clean, filled] using fun he => Or.inr (hlevel he)
  manifests := by simpa [clean, filled] using h.manifests
  connections := h.connections
  connection := h.connection
  description := by
    rw [enabled_clean, ne_eq, file_clean_eq_empty_iff]
    exact h.description

/-- In filled and cleaned settings there is nothing left to fill in. -/
theorem filled_clean_filled (s : Settings) : s.filled.clean.filled = s.filled.clean := by
  have houtput : s.filled.clean.output.filled = s.filled.clean.output :=
    OutputSettings.filled_of_path_ne (Path.clean_ne_empty _)
  have hgolang : s.filled.clean.golang.filled = s.filled.clean.golang := by
    refine if_neg fun ⟨henabled, hlevel⟩ => ?_
    have he : s.golang.enabled := by simpa [clean, filled] using henabled
    exact GoSettings.reportLevel_filled he hlevel
  rw [filled, houtput, hgolang]

/-- The settings of a text are those that are written in it, if they are valid, with what is empty
filled in and the paths cleaned. -/
theorem read_eq_ok_iff {text : String} : read text = .ok s ↔
    ∃ written, decode? text = some written ∧ written.Valid ∧ written.filled.clean = s := by
  unfold read
  cases decode? text with
  | none => simp
  | some written => simp [bind_eq_ok_iff, validate_eq_ok_iff, pure, Except.pure, and_assoc]

theorem validate_of_read {text : String} (h : read text = .ok s) : s.validate = .ok s := by
  obtain ⟨written, -, hvalid, rfl⟩ := read_eq_ok_iff.1 h
  exact validate_eq_ok_iff.2 ⟨hvalid.clean_filled, filled_clean_filled written⟩

end Clean

/-- Settings that are read pass validation again, and come out as they are. Their paths are those
written in the text, cleaned, or standard ones, and the directory for request files is the one
written there. So cleaning leaves a path as it is just if it is canonical, as it is if it was
written such that no name that is left holds a backslash, and that directory just if it is written
so. -/
theorem paths_cleaned {text : String} {s : Settings} (h : read text = .ok s) :
    s.validate = .ok s ∧
    ∃ written, decode? text = some written ∧
      s.cleanedPaths = written.filled.cleanedPaths.map Path.clean ∧
      s.swagger.output = written.swagger.output ∧
      (∀ p ∈ written.filled.cleanedPaths, Path.ShowsNames p → Path.Canonical (Path.clean p)) ∧
      (∀ p ∈ s.cleanedPaths, Path.clean p = p ↔ Path.Canonical p) ∧
      ((∀ p ∈ s.allPaths, Path.clean p = p) ↔
        (∀ p ∈ s.cleanedPaths, Path.Canonical p) ∧
          Path.clean written.swagger.output = written.swagger.output) := by
  obtain ⟨written, hwritten, -, hs⟩ := read_eq_ok_iff.1 h
  have hpaths : s.cleanedPaths = written.filled.cleanedPaths.map Path.clean := by
    rw [← hs, cleanedPaths_clean]
  have houtput : s.swagger.output = written.swagger.output := by rw [← hs, output_clean]; rfl
  have hclean : ∀ p ∈ s.cleanedPaths, Path.clean p = p ↔ Path.Canonical p := by
    rw [hpaths]
    exact List.forall_mem_map.2 fun p _ =>
      Path.clean_eq_self_iff (Path.backslash_notMem_clean p)
  refine ⟨validate_of_read h, written, hwritten, hpaths, houtput,
    fun p _ => Path.ShowsNames.canonical_clean, hclean, ?_⟩
  rw [allPaths, List.forall_mem_append, List.forall_mem_singleton, houtput]
  exact and_congr_left fun _ => forall₂_congr hclean

/-- A text with a path to be cleaned, and with a directory for request files. -/
def shopText (directory : String) : String :=
  "output:\n  format: json\nswagger:\n  enabled: true\n  file: ./api.json\n  output: " ++ directory

/-- The settings in that text. -/
def shopSettings (directory : String) : Settings where
  output := { format := "json", path := "docs" }
  swagger := { enabled := true, file := "api.json", output := directory }

theorem paths_cleaned_shopText : read (shopText "requests") = .ok (shopSettings "requests") ∧
    (shopSettings "requests").validate = .ok (shopSettings "requests") ∧
    ∀ p ∈ (shopSettings "requests").allPaths, Path.clean p = p := by
  have h : read (shopText "requests") = .ok (shopSettings "requests") := by decide +kernel
  exact ⟨h, (paths_cleaned h).1, by decide +kernel⟩

/-- The directory for request files keeps a slash that cleaning takes away. -/
theorem directory_not_cleaned : ∃ s, read (shopText "requests/") = .ok s ∧
    s.swagger.output = "requests/" ∧ Path.clean "requests/" = "requests" ∧
    ¬∀ p ∈ s.allPaths, Path.clean p = p :=
  ⟨shopSettings "requests/", by decide +kernel, rfl, by decide +kernel, by decide +kernel⟩

end Settings

end Atlas
