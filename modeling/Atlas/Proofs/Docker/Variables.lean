import Atlas.Proofs.Docker.Instructions
import Atlas.Proofs.Docker.Lines

/-!
# Variables with their values in quotes

A line may set several variables, each with its value in double quotes (`environmentLine`). Where a
quote is open, no character ends a word, and where none is, only blanks do
(`splitQuoted_append`). So the words of the line without the quotes are the variables
(`quotedWords_quotedVariables`), and the record of a file with this line alone holds just these
(`Dockerfile.read_environmentLine`).
-/

set_option linter.unusedSectionVars false

namespace Atlas.Docker

variable {v : Variable} {vs : List Variable} {s t : List Char}

/-! ## Variables as they are written -/

/-- A variable that can be written with its value in double quotes. -/
structure Variable.Quotable (v : Variable) : Prop where
  key_ne : v.key ≠ ""
  key : ∀ c ∈ v.key.toList, Chars.isBlank c = false ∧ c ≠ '=' ∧ c ≠ '"'
  value : ∀ c ∈ v.value.toList, c ≠ '"' ∧ c ≠ '\n'

instance (v : Variable) : Decidable v.Quotable :=
  decidable_of_iff (v.key ≠ "" ∧
    v.key.toList.all (fun c => Chars.isBlank c = false ∧ c ≠ '=' ∧ c ≠ '"') = true ∧
    v.value.toList.all (fun c => c ≠ '"' ∧ c ≠ '\n') = true) <| by
      simp only [List.all_eq_true, decide_eq_true_eq]
      exact ⟨fun h => ⟨h.1, h.2.1, h.2.2⟩, fun h => ⟨h.key_ne, h.key, h.value⟩⟩

/-- A variable with its value in double quotes. -/
def Variable.quoted (v : Variable) : String :=
  v.key ++ "=\"" ++ v.value ++ "\""

/-- What a line with variables says behind its first word. -/
def quotedVariables (vs : List Variable) : String :=
  " ".intercalate (vs.map Variable.quoted)

/-- The line that sets some variables. -/
def environmentLine (vs : List Variable) : String :=
  "ENV " ++ quotedVariables vs

theorem toList_label (v : Variable) : v.label.toList = v.key.toList ++ '=' :: v.value.toList := by
  simp [Variable.label]

theorem toList_quoted (v : Variable) :
    v.quoted.toList = v.key.toList ++ '=' :: '"' :: (v.value.toList ++ ['"']) := by
  simp [Variable.quoted]

/-- The variables are written one behind the other. -/
theorem toList_quotedVariables_cons (v : Variable) (vs : List Variable) :
    (quotedVariables (v :: vs)).toList =
      v.quoted.toList ++ if vs = [] then [] else ' ' :: (quotedVariables vs).toList := by
  cases vs with
  | nil => simp [quotedVariables]
  | cons w vs => simp [quotedVariables, String.intercalate_cons_cons]

/-! ## Words of quoted texts -/

theorem splitQuoted_ne_nil (quoted : Bool) (s : List Char) : splitQuoted quoted s ≠ [] := by
  have hcons : ∀ (c : Char) (ws : List (List Char)), consWord c ws ≠ [] := fun c ws => by
    cases ws <;> exact List.cons_ne_nil _ _
  cases s with
  | nil => exact List.cons_ne_nil _ _
  | cons c r =>
    rw [splitQuoted]
    split_ifs
    · exact splitQuoted_ne_nil _ r
    · exact List.cons_ne_nil _ _
    · exact hcons _ _

theorem splitQuoted_quote (quoted : Bool) (s : List Char) :
    splitQuoted quoted ('"' :: s) = splitQuoted (!quoted) s := by
  rw [splitQuoted, if_pos rfl]

/-- Where no quote is open, a word ends at a blank. -/
theorem splitQuoted_blank {c : Char} (hc : Chars.isBlank c = true) (hq : c ≠ '"') (s : List Char) :
    splitQuoted false (c :: s) = [] :: splitQuoted false s := by
  rw [splitQuoted, if_neg hq, if_pos ⟨hc, rfl⟩]

/-- A text without quotes stands in front of the first word, if its blanks are quoted. -/
theorem splitQuoted_append {quoted : Bool} (hq : '"' ∉ s)
    (hb : quoted = false → ∀ c ∈ s, Chars.isBlank c = false) (t : List Char) :
    splitQuoted quoted (s ++ t) = (splitQuoted quoted t).modifyHead (s ++ ·) := by
  induction s with
  | nil => exact (congrFun List.modifyHead_id _).symm
  | cons c s ih =>
    obtain ⟨hc, hs⟩ := not_or.1 (mt List.mem_cons.2 hq)
    have hsplit : ¬(Chars.isBlank c = true ∧ (!quoted) = true) := by
      rintro ⟨hblank, hquoted⟩
      have hfalse := hb (by simpa using hquoted) c List.mem_cons_self
      rw [hblank] at hfalse
      cases hfalse
    have hcons : ∀ ws : List (List Char), ws ≠ [] →
        consWord c (ws.modifyHead (s ++ ·)) = ws.modifyHead (c :: s ++ ·) := fun ws hws => by
      obtain ⟨w, ws, rfl⟩ := List.exists_cons_of_ne_nil hws
      rfl
    rw [List.cons_append, splitQuoted, if_neg (Ne.symm hc), if_neg hsplit,
      ih hs fun h c hc => hb h c (List.mem_cons_of_mem _ hc), hcons _ (splitQuoted_ne_nil _ t)]

/-- Quotes around a value are left out, and no blank in it ends a word. -/
theorem splitQuoted_quoted (hv : v.Quotable) (t : List Char) :
    splitQuoted false (v.quoted.toList ++ t) =
      (splitQuoted false t).modifyHead (v.label.toList ++ ·) := by
  have hkey : '"' ∉ v.key.toList ++ ['='] := by
    simpa using fun h => (hv.key _ h).2.2 rfl
  have hbare : ∀ c ∈ v.key.toList ++ ['='], Chars.isBlank c = false :=
    List.forall_mem_append.2
      ⟨fun c hc => (hv.key c hc).1, List.forall_mem_singleton.2 (by decide)⟩
  have hvalue : '"' ∉ v.value.toList := fun h => (hv.value _ h).1 rfl
  have hquoted : v.quoted.toList ++ t =
      (v.key.toList ++ ['=']) ++ '"' :: (v.value.toList ++ '"' :: t) := by
    simp [toList_quoted]
  rw [hquoted, splitQuoted_append hkey fun _ => hbare, splitQuoted_quote,
    splitQuoted_append hvalue (by simp), splitQuoted_quote, List.modifyHead_modifyHead]
  refine congrArg (fun f => List.modifyHead f _) (funext fun w => ?_)
  simp [toList_label]

/-- The words of variables with quotes are the variables without. -/
theorem quotedWords_quotedVariables (hvs : ∀ v ∈ vs, v.Quotable) :
    quotedWords (quotedVariables vs).toList = vs.map (·.label.toList) := by
  have hne : ∀ v : Variable, v.label.toList.isEmpty = false := fun v => by
    simp [toList_label]
  have hsplit : vs ≠ [] → splitQuoted false (quotedVariables vs).toList =
      vs.map (·.label.toList) := by
    intro hnil
    induction vs with
    | nil => exact absurd rfl hnil
    | cons v vs ih =>
      obtain ⟨hv, hvs⟩ := List.forall_mem_cons.1 hvs
      rw [toList_quotedVariables_cons, splitQuoted_quoted hv]
      split_ifs with hrest
      · simp [hrest, splitQuoted]
      · rw [splitQuoted_blank (by decide) (by decide), ih hvs hrest]
        simp
  by_cases hnil : vs = []
  · subst hnil
    rfl
  · rw [quotedWords, hsplit hnil]
    exact List.filter_eq_self.2 fun w hw => by
      obtain ⟨v, -, rfl⟩ := List.mem_map.1 hw
      simp [hne v]

/-! ## Lines with variables -/

theorem getLast?_quotedVariables (hne : vs ≠ []) :
    (quotedVariables vs).toList.getLast? = some '"' := by
  induction vs with
  | nil => exact absurd rfl hne
  | cons v vs ih =>
    rw [toList_quotedVariables_cons]
    split_ifs with hrest
    · simp [toList_quoted, List.getLast?_cons]
    · simp [List.getLast?_append, List.getLast?_cons, ih hrest]

/-- What a line says of its variables starts with the first of them. -/
theorem exists_quotedVariables (hne : vs ≠ []) : ∃ v r, v ∈ vs ∧
    (quotedVariables vs).toList = v.key.toList ++ '=' :: r := by
  obtain ⟨v, vs, rfl⟩ := List.exists_cons_of_ne_nil hne
  rw [toList_quotedVariables_cons, toList_quoted, List.append_assoc, List.cons_append]
  exact ⟨v, _, List.mem_cons_self, rfl⟩

theorem startsBare_quotedVariables (hne : vs ≠ []) (hvs : ∀ v ∈ vs, v.Quotable) :
    StartsBare (quotedVariables vs).toList := by
  obtain ⟨v, r, hv, hr⟩ := exists_quotedVariables hne
  have hkey : v.key.toList ≠ [] := fun h => (hvs v hv).key_ne (String.toList_eq_nil_iff.1 h)
  obtain ⟨c, cs, hc⟩ := List.exists_cons_of_ne_nil hkey
  rw [hr, hc]
  exact ⟨c, rfl, ((hvs v hv).key c (hc ▸ List.mem_cons_self)).1⟩

theorem trim_quotedVariables (hne : vs ≠ []) (hvs : ∀ v ∈ vs, v.Quotable) :
    Chars.trim (quotedVariables vs).toList = (quotedVariables vs).toList := by
  obtain ⟨c, hc, hblank⟩ := startsBare_quotedVariables hne hvs
  refine Chars.trim_eq_self_iff.2 ⟨fun d hd => ?_, fun d hd => ?_⟩
  · rwa [Option.mem_unique hd hc]
  · rw [getLast?_quotedVariables hne] at hd
    obtain rfl := Option.mem_some.1 hd
    decide

/-- The variables of a line are read as they are written. -/
theorem envVariables_quotedVariables (hne : vs ≠ []) (hvs : ∀ v ∈ vs, v.Quotable) :
    envVariables (quotedVariables vs).toList = vs := by
  have hfirst : '=' ∈ (quotedVariables vs).toList.takeWhile fun c => !Chars.isBlank c := by
    obtain ⟨v, r, hv, hr⟩ := exists_quotedVariables hne
    rw [hr, List.takeWhile_append_of_pos fun c hc => by simp [((hvs v hv).key c hc).1],
      List.takeWhile_cons_of_pos (by decide)]
    exact List.mem_append_right _ List.mem_cons_self
  have hcut : ∀ v ∈ vs, Chars.cut? ['='] v.label.toList =
      some (v.key.toList, v.value.toList) := fun v hv =>
    Chars.cut?_singleton_eq_some_iff.2 ⟨toList_label v, fun h => ((hvs v hv).key _ h).2.1 rfl⟩
  rw [envVariables, trim_quotedVariables hne hvs]
  dsimp only
  rw [if_pos (by simpa using hfirst), quotedWords_quotedVariables hvs, List.filterMap_map]
  refine (List.filterMap_congr fun v hv => ?_).trans List.filterMap_some
  rw [Function.comp_apply, hcut v hv, Option.map_some, String.ofList_toList, String.ofList_toList]

theorem feed_notMem_quotedVariables (hvs : ∀ v ∈ vs, v.Quotable) :
    '\n' ∉ (quotedVariables vs).toList := by
  refine Text.char_notMem_intercalate (by decide) fun s hs => ?_
  obtain ⟨v, hv, rfl⟩ := List.mem_map.1 hs
  have hkey : '\n' ∉ v.key.toList := fun h =>
    absurd ((hvs v hv).key _ h).1 (by decide)
  have hvalue : '\n' ∉ v.value.toList := fun h => ((hvs v hv).value _ h).2 rfl
  simp [toList_quoted, hkey, hvalue]

/-- The line is the one logical line of a text that holds nothing else. -/
theorem logicalLines_environmentLine (hne : vs ≠ []) (hvs : ∀ v ∈ vs, v.Quotable)
    {ending : String} (hend : ending ∈ ["", "\n", "\r\n"]) :
    logicalLines (environmentLine vs ++ ending).toList = [(environmentLine vs).toList] := by
  have htoList : (environmentLine vs).toList = "ENV ".toList ++ (quotedVariables vs).toList := by
    rw [environmentLine, String.toList_append]
  have hlast : (environmentLine vs).toList.getLast? = some '"' := by
    rw [htoList, List.getLast?_append, getLast?_quotedVariables hne]
    rfl
  obtain ⟨init, hinit⟩ := List.getLast?_eq_some_iff.1 hlast
  have hlines : Chars.lines (environmentLine vs ++ ending).toList =
      [(environmentLine vs).toList] := by
    have hfeed : '\n' ∉ init := fun h => by
      have hmem : '\n' ∈ (environmentLine vs).toList := hinit ▸ List.mem_append_left _ h
      rw [htoList] at hmem
      exact (List.mem_append.1 hmem).elim (by decide) (feed_notMem_quotedVariables hvs)
    have hclose : Chars.lines ('"' :: ending.toList) = [['"']] := by
      revert ending
      decide
    rw [String.toList_append, hinit, List.append_assoc]
    exact Chars.lines_append_of_feed_notMem hfeed (fun _ => by simp) hclose
  have htrim : Chars.trim (environmentLine vs).toList = (environmentLine vs).toList := by
    refine Chars.trim_eq_self_iff.2 ⟨fun d hd => ?_, fun d hd => ?_⟩
    · rw [htoList] at hd
      obtain rfl := Option.mem_some.1 hd
      decide
    · obtain rfl := Option.mem_some.1 (hlast ▸ hd)
      decide
  have hcomment : ¬IsComment (environmentLine vs).toList := by
    rw [IsComment, htrim, htoList]
    exact fun h => absurd (Option.some.inj h) (by decide)
  have hgoes : ¬GoesOn (environmentLine vs).toList := by
    rw [GoesOn, htrim, hlast]
    decide
  rw [logicalLines, hlines, joinLines_cons_of_not_goesOn hcomment hgoes, List.nil_append, htrim,
    lineOf, htrim, if_neg (by simp [hinit]), joinLines_nil, lineOf]
  rfl

namespace Dockerfile

/-- A line with variables adds these to a file and changes nothing else. -/
theorem apply_environmentLine (hne : vs ≠ []) (hvs : ∀ v ∈ vs, v.Quotable) (f : Dockerfile) :
    f.apply (environmentLine vs).toList = { f with environment := f.environment ++ vs } := by
  have hgives : Instruction.ofLine? (environmentLine vs).toList =
      some (.env, (quotedVariables vs).toList) :=
    Instruction.ofLine?_eq_some_iff.2 ⟨"ENV".toList, [' '], by simp [environmentLine], by decide,
      List.cons_ne_nil _ _, List.forall_mem_singleton.2 (by decide),
      startsBare_quotedVariables hne hvs⟩
  rw [apply, hgives]
  simp only [run, envVariables_quotedVariables hne hvs]

/-- The record of a file with one line, in which the values of variables stand in quotes, has these
variables in order and nothing else. -/
theorem read_environmentLine (path : String) {vs : List Variable} (hne : vs ≠ [])
    (hvs : ∀ v ∈ vs, v.Quotable) {ending : String} (hend : ending ∈ ["", "\n", "\r\n"]) :
    read path (environmentLine vs ++ ending) = { path, environment := vs } := by
  rw [read, logicalLines_environmentLine hne hvs hend, List.foldl_cons, List.foldl_nil,
    apply_environmentLine hne hvs]
  rfl

/-- Blanks, equals signs and a backslash at the end of a value are read as they stand. -/
theorem read_environmentLine_options :
    read "Dockerfile" "ENV PATH=\"/opt/my app:$PATH\" OPTS=\"-Dk=v, \\\" EMPTY=\"\"\n" =
      { path := "Dockerfile"
        environment := [⟨"PATH", "/opt/my app:$PATH"⟩, ⟨"OPTS", "-Dk=v, \\"⟩, ⟨"EMPTY", ""⟩] } := by
  have hread := read_environmentLine "Dockerfile" (List.cons_ne_nil ⟨"PATH", "/opt/my app:$PATH"⟩
    [⟨"OPTS", "-Dk=v, \\"⟩, ⟨"EMPTY", ""⟩]) (by decide) (by decide : "\n" ∈ ["", "\n", "\r\n"])
  exact hread

end Dockerfile

end Atlas.Docker
