import Atlas.Command.Run
import Atlas.Proofs.Files.Write
import Atlas.Proofs.Settings

/-!
# Format and directory that are asked for

A settings file has to be valid on its own: what is wrong with it is said whatever format and
directory are asked for (`Command.Overrides.rejected`). If it is valid, asking for them does what is
done for a file in which they are written (`Command.Overrides.accepted`), as long as the directory
is not the empty text, which stands for the standard one only where it is written in the file.
-/

set_option linter.unusedSectionVars false

namespace Atlas

open FileAction

/-! ## Settings with another output -/

namespace Settings

/-- The settings that are written in a text, checked and cleaned. -/
def accepted (s : Settings) : Result Settings := return (← s.validate).clean

/-- The written settings with the format and the directory that are asked for written in them. -/
def asking (s : Settings) (format output : Option String) : Settings :=
  { s with output :=
    { format := format.getD s.output.format, path := output.getD s.output.path } }

/-- The accepted settings with the format and the directory that are asked for. -/
def overridden (s : Settings) (format output : Option String) : Settings :=
  { s with output :=
    { format := format.getD s.output.format
      path := (output.map Path.clean).getD s.output.path } }

/-- What is wrong with a format without a meaning. -/
def formatError (format : String) : Error :=
  .config (if format = "" then "output format not specified"
    else "invalid output format (use: html, markdown, json, yaml or text)")

variable {s : Settings} {format output : Option String}

/-- The format is looked at first. -/
theorem validate_of_ofCode?_eq_none (h : OutputFormat.ofCode? s.output.format = none) :
    s.validate = .error (formatError s.output.format) := by
  unfold validate formatError
  by_cases hformat : s.output.format = ""
  · rw [hformat]
    rfl
  · have hrequire : require (!s.output.format.isEmpty) "output format not specified" = .ok () := by
      simp [require, hformat]
    rw [hrequire, outputFormat, h, if_neg hformat]
    rfl

theorem read_eq_accepted {text : String} (h : decode? text = some s) : read text = s.accepted := by
  rw [read, h, accepted]

theorem Valid.accepted (h : s.Valid) : s.accepted = .ok s.filled.clean := by
  rw [Settings.accepted, validate_eq_ok_iff.2 ⟨h, rfl⟩]
  rfl

/-- Only the format that is asked for may be wrong. -/
theorem Valid.asking (h : s.Valid)
    (hformat : (OutputFormat.ofCode? (s.asking format output).output.format).isSome) :
    (s.asking format output).Valid :=
  { h with format := hformat }

theorem format_clean_filled (s : Settings) : s.filled.clean.output.format = s.output.format := by
  simp [clean, filled]

/-- A directory that is asked for is cleaned as if it were written. -/
theorem overridden_clean_filled (s : Settings) (format : Option String) (h : output ≠ some "") :
    s.filled.clean.overridden format output = (s.asking format output).filled.clean := by
  have hpath : (output.map Path.clean).getD s.filled.clean.output.path =
      (s.asking format output).filled.clean.output.path := by
    cases output with
    | none =>
      by_cases hempty : s.output.path = "" <;>
        simp [asking, filled, clean, OutputSettings.filled, hempty]
    | some p =>
      have hp : p ≠ "" := fun he => h (congrArg some he)
      simp [asking, filled, clean, OutputSettings.filled, hp]
  have hformat : format.getD s.filled.clean.output.format =
      (s.asking format output).filled.clean.output.format := by
    rw [format_clean_filled, format_clean_filled]
    rfl
  rw [overridden, hpath, hformat]
  simp only [asking, filled, clean]
  rfl

/-- Settings that are accepted are overridden by what is asked for as if it were written there. -/
theorem Valid.validate_overridden (hs : s.Valid) (houtput : output ≠ some "") :
    (s.filled.clean.overridden format output).validate = (s.asking format output).accepted := by
  rw [overridden_clean_filled s format houtput]
  cases hformat : OutputFormat.ofCode? (s.asking format output).output.format with
  | some f =>
    have hvalid : (s.asking format output).Valid := hs.asking (by rw [hformat]; rfl)
    rw [hvalid.accepted, validate_eq_ok_iff.2 ⟨hvalid.clean_filled, filled_clean_filled _⟩]
  | none =>
    have hcleaned := format_clean_filled (s.asking format output)
    rw [Settings.accepted, validate_of_ofCode?_eq_none hformat,
      validate_of_ofCode?_eq_none (by rw [hcleaned, hformat]), hcleaned]
    rfl

end Settings

/-! ## The settings of a run -/

/-- The settings in a file, checked and cleaned. -/
def FileSystem.ownSettings (fs : FileSystem) (path : String) : Result Settings := do
  let text ← (fs.readText path).mapError FileFault.toError
  Settings.read text

namespace Command

/-- Documents what settings ask for, if there are any. -/
def documentWith (servers : Servers) (t : Timing) (verbose : Bool) (r : Result Settings) :
    FileAction (List String) := do
  let s ← ofResult r
  document (analyse ⟨← get, servers⟩ s) t verbose

/-- The file at a path is the one at another, but with the format and the directory written in it
that are asked for. -/
def Rewritten (fs : FileSystem) (path : String) (format output : Option String)
    (fs' : FileSystem) (path' : String) : Prop :=
  ∃ text text', fs.readText path = .ok text ∧ fs'.readText path' = .ok text' ∧
    Settings.decode? text' = (Settings.decode? text).map (·.asking format output)

section Run

variable {fs fs' : FileSystem} {path path' : String} {format output : Option String}

/-- Settings are taken from the file, and checked once more with what is asked for. -/
theorem runOn_loadSettings (fs : FileSystem) (path : String) (format output : Option String) :
    (loadSettings path format output).runOn fs =
      (fs.ownSettings path >>= fun s => (s.overridden format output).validate, fs) := by
  rw [loadSettings, runOn_bind, runOn_reading, FileSystem.ownSettings]
  cases fs.readText path with
  | error fault => rfl
  | ok text => exact runOn_ofResult _ _

theorem validate_ownSettings {s : Settings} (h : fs.ownSettings path = .ok s) :
    s.validate = .ok s := by
  obtain ⟨text, -, hread⟩ := bind_eq_ok_iff.1 h
  exact Settings.validate_of_read hread

/-- Where nothing is asked for the settings of the file stay as they are. -/
theorem ownSettings_bind_validate (fs : FileSystem) (path : String) :
    (fs.ownSettings path >>= fun s => (s.overridden none none).validate) = fs.ownSettings path := by
  cases h : fs.ownSettings path with
  | error e => rfl
  | ok s => exact validate_ownSettings h

/-- Settings that are accepted on their own are overridden as if they were rewritten. -/
theorem ownSettings_of_rewritten (h : Rewritten fs path format output fs' path') {s : Settings}
    (hs : fs.ownSettings path = .ok s) (houtput : output ≠ some "") :
    (s.overridden format output).validate = fs'.ownSettings path' := by
  obtain ⟨text, text', htext, htext', hdecode⟩ := h
  rw [FileSystem.ownSettings, htext] at hs
  obtain ⟨written, hwritten, hvalid, rfl⟩ := Settings.read_eq_ok_iff.1 hs
  rw [hwritten, Option.map_some] at hdecode
  rw [hvalid.validate_overridden houtput, FileSystem.ownSettings, htext',
    ← Settings.read_eq_accepted hdecode]
  rfl

end Run

section Generate

variable (servers : Servers) (t : Timing) (verbose : Bool)

theorem runOn_generate (fs : FileSystem) (path : String) (format output : Option String) :
    (run servers t verbose (.generate path format output)).runOn fs =
      (documentWith servers t verbose
        (fs.ownSettings path >>= fun s => (s.overridden format output).validate)).runOn fs := by
  rw [run, runGenerate, runOn_bind, runOn_loadSettings, documentWith, runOn_bind, runOn_ofResult]

/-- What a format and a directory that are asked for change in a run. -/
structure Overrides (fs : FileSystem) (path : String) : Prop where
  plain : (run servers t verbose (.generate path none none)).runOn fs =
    (documentWith servers t verbose (fs.ownSettings path)).runOn fs
  rejected : ∀ e, fs.ownSettings path = .error e → ∀ format output,
    (run servers t verbose (.generate path format output)).runOn fs = (.error e, fs)
  accepted : ∀ s, fs.ownSettings path = .ok s → ∀ format output, output ≠ some "" →
    ∀ fs' path', Rewritten fs path format output fs' path' →
      (run servers t verbose (.generate path format output)).runOn fs =
        (documentWith servers t verbose (fs'.ownSettings path')).runOn fs

/-- A file that is wrong on its own is rejected whatever is asked for. With another one the run does
what it does for the settings of the file in which the format and the directory are written. -/
theorem overrides (fs : FileSystem) (path : String) : Overrides servers t verbose fs path where
  plain := by rw [runOn_generate, ownSettings_bind_validate]
  rejected e he format output := by
    rw [runOn_generate, he, documentWith, runOn_bind, runOn_ofResult]
    rfl
  accepted s hs format output houtput fs' path' h := by
    rw [runOn_generate, hs, ← ownSettings_of_rewritten h hs houtput]
    rfl

end Generate

/-- The text of a settings file for containers, behind what it says on the output. -/
def containersText (output : String) : String :=
  output ++ "docker:\n  enabled: true\n"

/-- Settings files with no output, with a format, and with a format and a directory. -/
def settingsFiles : FileSystem where
  root := .directory [
    ("bare.yml", .ofText (containersText "")),
    ("blank.yml", .ofText (containersText "output:\n  format: json\n  path: \"\"\n")),
    ("json.yml", .ofText (containersText "output:\n  format: json\n")),
    ("site.yml", .ofText (containersText "output:\n  format: markdown\n  path: ./site\n"))]
  workingDirectory := []

/-- A run on these files at no time in particular. -/
def runOnFiles (command : Command) : Result (List String) × FileSystem :=
  (run .unreachable ⟨"", fun _ => .int 0, .int 0⟩ false command).runOn settingsFiles

theorem overrides_settingsFiles :
    runOnFiles (.generate "json.yml" (some "markdown") (some "./site")) =
      runOnFiles (.generate "site.yml" none none) ∧
    runOnFiles (.generate "bare.yml" (some "json") none) =
      (.error (.config "output format not specified"), settingsFiles) := by
  have hjson : settingsFiles.ownSettings "json.yml" =
      .ok { output := ⟨"json", "docs"⟩, docker := ⟨true, "."⟩ } := by decide +kernel
  have hsite : Rewritten settingsFiles "json.yml" (some "markdown") (some "./site")
      settingsFiles "site.yml" :=
    ⟨containersText "output:\n  format: json\n",
      containersText "output:\n  format: markdown\n  path: ./site\n",
      by decide +kernel, by decide +kernel, by decide +kernel⟩
  have hbare : settingsFiles.ownSettings "bare.yml" =
      .error (.config "output format not specified") := by decide +kernel
  refine ⟨?_, (overrides _ _ _ _ "bare.yml").rejected _ hbare _ _⟩
  rw [runOnFiles, runOnFiles, (overrides _ _ _ _ "site.yml").plain]
  exact (overrides _ _ _ _ "json.yml").accepted _ hjson _ _ (by decide) _ _ hsite

/-- A file without a format is rejected though one is asked for, and not if it is written there. The
empty text that is asked for is the working directory, and the standard one if it is written. -/
theorem generate_not_rewritten :
    (Rewritten settingsFiles "bare.yml" (some "json") none settingsFiles "json.yml" ∧
      (runOnFiles (.generate "bare.yml" (some "json") none)).1 =
        .error (.config "output format not specified") ∧
      (runOnFiles (.generate "json.yml" none none)).1.isOk) ∧
    Rewritten settingsFiles "json.yml" none (some "") settingsFiles "blank.yml" ∧
      (runOnFiles (.generate "json.yml" none (some ""))).1.toOption.bind List.getLast? =
        some "  Output written to: ./documentation.json" ∧
      (runOnFiles (.generate "blank.yml" none none)).1.toOption.bind List.getLast? =
        some "  Output written to: docs/documentation.json" := by
  have hbare : settingsFiles.readText "bare.yml" = .ok (containersText "") := by decide +kernel
  have hjson : settingsFiles.readText "json.yml" =
      .ok (containersText "output:\n  format: json\n") := by decide +kernel
  have hblank : settingsFiles.readText "blank.yml" =
      .ok (containersText "output:\n  format: json\n  path: \"\"\n") := by decide +kernel
  refine ⟨⟨⟨_, _, hbare, hjson, ?_⟩, ?_, ?_⟩, ⟨_, _, hjson, hblank, ?_⟩, ?_, ?_⟩ <;> decide +kernel

end Command

end Atlas
