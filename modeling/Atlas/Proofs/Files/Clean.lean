import Atlas.Files.Path
import Atlas.Proofs.Text

/-!
# Cleaned paths

A path along names without slashes is cut into these names again (`splitOn_intercalate`). So names
are told by the path along them, if no backslash in them is read as a slash (`ofNames_inj`).

From a directory, a path leads to a place (`Path.place`), with dots and two dots read as the text
has them. A path is canonical (`Path.Canonical`) if nothing in it could be left out.

A path is taken apart into names that keep its place (`place_eq`), and written down again as
`Path.tidy`. That text is canonical for every path (`canonical_tidy`), and paths that lead to the
same places have one such text (`tidy_eq_iff`). The cleaned path is this text with slashes in place
of backslashes. So it is canonical and leads to the same places as long as no name that is left
holds a backslash; otherwise it leads elsewhere (`clean_canonical`).
-/

set_option linter.unusedSectionVars false

namespace Atlas.Path

/-! ## Names in a path -/

theorem splitOn_append (s t : String) :
    Text.splitOn '/' (s ++ "/" ++ t) = Text.splitOn '/' s ++ Text.splitOn '/' t :=
  Text.splitOn_append rfl s t

theorem splitOn_name {name : String} (h : '/' ∉ name.toList) : Text.splitOn '/' name = [name] :=
  Text.splitOn_of_char_notMem h

theorem splitOn_intercalate {names : List String} (hne : names ≠ [])
    (h : ∀ n ∈ names, '/' ∉ n.toList) :
    Text.splitOn '/' (String.intercalate "/" names) = names :=
  Text.splitOn_intercalate_of_notMem rfl hne h

/-- A name that a path shows as it is. -/
structure IsPlain (name : String) : Prop where
  noSlash : '/' ∉ name.toList
  noBackslash : '\\' ∉ name.toList

instance (name : String) : Decidable (IsPlain name) :=
  decidable_of_iff ('/' ∉ name.toList ∧ '\\' ∉ name.toList)
    ⟨fun h => ⟨h.1, h.2⟩, fun h => ⟨h.noSlash, h.noBackslash⟩⟩

theorem ofNames_eq {names : List String} (h : ∀ n ∈ names, IsPlain n) :
    ofNames names = String.intercalate "/" names := by
  have hpath : '\\' ∉ (String.intercalate "/" names).toList :=
    Text.char_notMem_intercalate (by decide) fun n hn => (h n hn).noBackslash
  rw [ofNames, Text.replace_of_char_notMem (by decide) hpath]

theorem ofNames_inj {names names' : List String} (hne : names ≠ []) (hne' : names' ≠ [])
    (h : ∀ n ∈ names, IsPlain n) (h' : ∀ n ∈ names', IsPlain n) :
    ofNames names = ofNames names' ↔ names = names' := by
  refine ⟨fun he => ?_, congrArg ofNames⟩
  rw [ofNames_eq h, ofNames_eq h'] at he
  have hsplit := congrArg (Text.splitOn '/') he
  rwa [splitOn_intercalate hne fun n hn => (h n hn).noSlash,
    splitOn_intercalate hne' fun n hn => (h' n hn).noSlash] at hsplit

/-! ## Places -/

/-- One piece of a path further from a place, whose names come last first. Two dots lead back, and
stay at the root. -/
def onward (here : List String) (piece : String) : List String :=
  if piece = "" ∨ piece = "." then here
  else if piece = ".." then here.tail
  else piece :: here

/-- Where a path leads from a directory, with the names of both last first. -/
def place (directory : List String) (p : String) : List String :=
  (Text.splitOn '/' p).foldl onward (if isAbsolute p then [] else directory)

/-- A piece of a path that leads on or back. -/
structure LeadsOn (c : String) : Prop where
  noSlash : '/' ∉ c.toList
  ne_empty : c ≠ ""
  ne_dot : c ≠ "."

theorem leadsOn_of_mem_components {p c : String} (h : c ∈ components p) : LeadsOn c := by
  obtain ⟨hmem, hc⟩ := List.mem_filter.1 h
  obtain ⟨hempty, hdot⟩ := of_decide_eq_true hc
  exact ⟨Text.notMem_of_mem_splitOn hmem, hempty, hdot⟩

theorem onward_up (here : List String) : onward here ".." = here.tail :=
  rfl

theorem onward_name {c : String} (h : LeadsOn c) (hup : c ≠ "..") (here : List String) :
    onward here c = c :: here := by
  rw [onward, if_neg (not_or.2 ⟨h.ne_empty, h.ne_dot⟩), if_neg hup]

theorem mem_of_mem_onward {here : List String} {piece c : String} (h : c ∈ onward here piece) :
    c ∈ here ∨ c = piece := by
  unfold onward at h
  split_ifs at h
  · exact Or.inl h
  · exact Or.inl (List.mem_of_mem_tail h)
  · exact (List.mem_cons.1 h).symm

/-- All names of a place are names from before or pieces that led there. -/
theorem mem_of_mem_foldl_onward {pieces here : List String} {c : String}
    (h : c ∈ pieces.foldl onward here) : c ∈ here ∨ c ∈ pieces := by
  induction pieces generalizing here with
  | nil => exact Or.inl h
  | cons piece pieces ih =>
    rcases ih h with hc | hc
    · exact (mem_of_mem_onward hc).imp_right fun he => List.mem_cons.2 (Or.inl he)
    · exact Or.inr (List.mem_cons_of_mem _ hc)

/-- Pieces that lead nowhere may be left out. -/
theorem place_eq_components (directory : List String) (p : String) : place directory p =
    (components p).foldl onward (if isAbsolute p then [] else directory) := by
  unfold place components
  generalize (if isAbsolute p then [] else directory) = here
  generalize Text.splitOn '/' p = pieces
  induction pieces generalizing here with
  | nil => rfl
  | cons c cs ih =>
    rw [List.filter_cons, List.foldl_cons]
    split_ifs with hc
    · rw [List.foldl_cons, ih]
    · rw [ih, onward, if_pos (by simpa [← not_or] using hc)]

/-! ## Names that are left -/

/-- One more piece is kept, or takes a name back, or is dropped at the root, or leads up. -/
theorem cleanStep_cases (absolute : Bool) (kept : List String) (c : String) :
    (c ≠ ".." ∧ cleanStep absolute kept c = c :: kept) ∨
    (c = ".." ∧ ∃ k r, kept = k :: r ∧ k ≠ ".." ∧ cleanStep absolute kept c = r) ∨
    (c = ".." ∧ kept = [] ∧ absolute = true ∧ cleanStep absolute kept c = []) ∨
    (c = ".." ∧ (∀ k ∈ kept.head?, k = "..") ∧ (kept = [] → absolute = false) ∧
      cleanStep absolute kept c = ".." :: kept) := by
  by_cases hc : c = ".."
  · subst hc
    cases kept with
    | nil => cases absolute <;> simp [cleanStep]
    | cons k r => by_cases hk : k = ".." <;> simp [cleanStep, hk]
  · simp [cleanStep, hc]

/-- Where names, the last one first, lead from a directory. -/
def placeOf (directory kept : List String) : List String :=
  kept.foldr (fun c here => onward here c) directory

/-- Names, the last one first, that lead up first and then on, and never up from the root. -/
def UpThenOn (absolute : Bool) (kept : List String) : Prop :=
  ∃ names n, kept = names ++ List.replicate n ".." ∧ ".." ∉ names ∧ (absolute = true → n = 0)

/-- The names kept of some pieces, the last one first, lead to the same place as all pieces. -/
structure Keeps (absolute : Bool) (cs kept : List String) : Prop where
  mem : ∀ k ∈ kept, k ∈ cs
  upThenOn : UpThenOn absolute kept
  place : ∀ directory, (absolute = true → directory = []) →
    placeOf directory kept = cs.foldl onward directory

section Step

variable {absolute : Bool} {cs kept : List String} {c : String}

theorem upThenOn_cleanStep (h : UpThenOn absolute kept) :
    UpThenOn absolute (cleanStep absolute kept c) := by
  obtain ⟨names, n, hkept, hnames, hroot⟩ := h
  rcases cleanStep_cases absolute kept c with ⟨hc, hstep⟩ | ⟨-, k, r, hcons, hk, hstep⟩ |
    ⟨-, -, -, hstep⟩ | ⟨-, hhead, hnil, hstep⟩
  · refine ⟨c :: names, n, by rw [hstep, hkept, List.cons_append], ?_, hroot⟩
    rw [List.mem_cons, not_or]
    exact ⟨Ne.symm hc, hnames⟩
  · cases names with
    | nil => cases n <;> simp_all [List.replicate_succ]
    | cons k' r' =>
      obtain ⟨rfl, rfl⟩ := List.cons.inj (hcons.symm.trans hkept)
      exact ⟨r', n, hstep, mt (List.mem_cons_of_mem _) hnames, hroot⟩
  · exact ⟨[], 0, hstep, List.not_mem_nil, fun _ => rfl⟩
  · cases names with
    | cons k r => simp_all
    | nil =>
      refine ⟨[], n + 1, by rw [hstep, hkept, List.replicate_succ]; rfl, List.not_mem_nil,
        fun ha => ?_⟩
      have hne : kept ≠ [] := fun h => by simp [hnil h] at ha
      simp_all

/-- A name that is taken back leads to the same place. -/
theorem placeOf_cleanStep {directory : List String} (hroot : absolute = true → directory = [])
    (hkept : ∀ k ∈ kept, LeadsOn k) : placeOf directory (cleanStep absolute kept c) =
      onward (placeOf directory kept) c := by
  rcases cleanStep_cases absolute kept c with ⟨-, hstep⟩ | ⟨rfl, k, r, rfl, hk, hstep⟩ |
    ⟨rfl, rfl, ha, hstep⟩ | ⟨rfl, -, -, hstep⟩
  · rw [hstep]
    rfl
  · have hback : placeOf directory (k :: r) = k :: placeOf directory r :=
      onward_name (hkept k List.mem_cons_self) hk _
    rw [hstep, hback]
    rfl
  · rw [hstep, hroot ha]
    rfl
  · rw [hstep]
    rfl

theorem mem_of_mem_cleanStep {k : String} (h : k ∈ cleanStep absolute kept c) :
    k ∈ kept ∨ k = c := by
  rcases cleanStep_cases absolute kept c with ⟨-, hstep⟩ | ⟨-, k', r, rfl, -, hstep⟩ |
    ⟨-, -, -, hstep⟩ | ⟨rfl, -, -, hstep⟩ <;> rw [hstep] at h
  · exact (List.mem_cons.1 h).symm
  · exact Or.inl (List.mem_cons_of_mem _ h)
  · cases h
  · exact (List.mem_cons.1 h).symm

theorem Keeps.concat (h : Keeps absolute cs kept) (hcs : ∀ c ∈ cs, LeadsOn c) :
    Keeps absolute (cs ++ [c]) (cleanStep absolute kept c) where
  mem k hk := List.mem_append.2 <| (mem_of_mem_cleanStep hk).imp (h.mem k) List.mem_singleton.2
  upThenOn := upThenOn_cleanStep h.upThenOn
  place directory hroot := by
    rw [placeOf_cleanStep hroot fun k hk => hcs k (h.mem k hk), h.place directory hroot,
      List.foldl_append]
    rfl

theorem keeps_foldl (hcs : ∀ c ∈ cs, LeadsOn c) :
    Keeps absolute cs (cs.foldl (cleanStep absolute) []) := by
  induction cs using List.reverseRecOn with
  | nil =>
    exact ⟨List.forall_mem_nil _, ⟨[], 0, rfl, List.not_mem_nil, fun _ => rfl⟩, fun _ _ => rfl⟩
  | append_singleton cs c ih =>
    rw [List.foldl_append]
    have hcs := (List.forall_mem_append.1 hcs).1
    exact (ih hcs).concat hcs

end Step

/-- Names that lead up first and then on, and never up from the root. -/
structure Folded (absolute : Bool) (names : List String) : Prop where
  leadsOn : ∀ c ∈ names, LeadsOn c
  split : ∃ n rest, names = List.replicate n ".." ++ rest ∧ ".." ∉ rest ∧
    (absolute = true → n = 0)

theorem keeps_cleanComponents (p : String) :
    Keeps (isAbsolute p) (components p) (cleanComponents p).reverse := by
  rw [cleanComponents, List.reverse_reverse]
  exact keeps_foldl fun c => leadsOn_of_mem_components

theorem mem_components {p c : String} (h : c ∈ cleanComponents p) : c ∈ components p :=
  (keeps_cleanComponents p).mem c (List.mem_reverse.2 h)

theorem folded_cleanComponents (p : String) : Folded (isAbsolute p) (cleanComponents p) := by
  obtain ⟨names, n, hkept, hnames, hroot⟩ := (keeps_cleanComponents p).upThenOn
  refine ⟨fun c hc => leadsOn_of_mem_components (mem_components hc), n, names.reverse, ?_,
    mt List.mem_reverse.1 hnames, hroot⟩
  rw [← List.reverse_reverse (cleanComponents p), hkept, List.reverse_append,
    List.reverse_replicate]

/-- The names that are left lead to the same place. -/
theorem place_eq (directory : List String) (p : String) : place directory p =
    (cleanComponents p).foldl onward (if isAbsolute p then [] else directory) := by
  rw [place_eq_components, ← (keeps_cleanComponents p).place _ fun ha => if_pos ha, placeOf,
    List.foldr_reverse]

section Folded

variable {absolute : Bool} {names : List String}

theorem foldl_onward_names (h : ∀ c ∈ names, LeadsOn c) (hup : ".." ∉ names) (here : List String) :
    names.foldl onward here = names.reverse ++ here := by
  induction names generalizing here with
  | nil => rfl
  | cons c cs ih =>
    obtain ⟨hc, hcs⟩ := List.forall_mem_cons.1 h
    obtain ⟨hne, hup⟩ := not_or.1 (mt List.mem_cons.2 hup)
    rw [List.foldl_cons, onward_name hc (Ne.symm hne), ih hcs hup, List.reverse_cons,
      List.append_assoc, List.singleton_append]

theorem foldl_onward_ups (n : ℕ) (here : List String) :
    (List.replicate n "..").foldl onward here = here.drop n := by
  induction n generalizing here with
  | zero => rfl
  | succ n ih => rw [List.replicate_succ, List.foldl_cons, onward_up, ih, List.drop_tail]

theorem foldl_cleanStep_names (hup : ".." ∉ names) (kept : List String) :
    names.foldl (cleanStep absolute) kept = names.reverse ++ kept := by
  induction names generalizing kept with
  | nil => rfl
  | cons c cs ih =>
    obtain ⟨hne, hup⟩ := not_or.1 (mt List.mem_cons.2 hup)
    have hstep : cleanStep absolute kept c = c :: kept := if_neg (Ne.symm hne)
    rw [List.foldl_cons, hstep, ih hup, List.reverse_cons, List.append_assoc,
      List.singleton_append]

theorem foldl_cleanStep_ups (n : ℕ) :
    (List.replicate n "..").foldl (cleanStep false) [] = List.replicate n ".." := by
  induction n with
  | zero => rfl
  | succ n ih =>
    rw [List.replicate_succ', List.foldl_append, ih]
    cases n with
    | zero => rfl
    | succ n => rw [← List.replicate_succ']; rfl

/-- Nothing is left out of such names. -/
theorem Folded.foldl_cleanStep (h : Folded absolute names) :
    (names.foldl (cleanStep absolute) []).reverse = names := by
  obtain ⟨n, rest, rfl, hrest, hroot⟩ := h.split
  have hups : (List.replicate n "..").foldl (cleanStep absolute) [] = List.replicate n ".." := by
    cases absolute with
    | true => rw [hroot rfl]; rfl
    | false => exact foldl_cleanStep_ups n
  rw [List.foldl_append, hups, foldl_cleanStep_names hrest, List.reverse_append,
    List.reverse_reverse, List.reverse_replicate]

end Folded

/-! ## Written paths -/

/-- The path along names, from the root or not. -/
def written (absolute : Bool) (names : List String) : String :=
  if absolute then "/" ++ "/".intercalate names
  else if names = [] then "."
  else "/".intercalate names

/-- What stands between the slashes of a path, behind the root. -/
def pieces (p : String) : List String :=
  if isAbsolute p then (Text.splitOn '/' p).tail else Text.splitOn '/' p

theorem isAbsolute_iff {p : String} : isAbsolute p = true ↔ ∃ r, p = "/" ++ r := by
  rw [isAbsolute, Text.startsWith_iff]
  constructor
  · rintro ⟨r, hr⟩
    exact ⟨String.ofList r, String.toList_inj.1 (by rw [← hr]; simp)⟩
  · rintro ⟨r, rfl⟩
    exact ⟨r.toList, by simp⟩

theorem splitOn_absolute (r : String) : Text.splitOn '/' ("/" ++ r) = "" :: Text.splitOn '/' r :=
  splitOn_append "" r

section Written

variable {absolute : Bool} {names : List String}

theorem splitOn_names (h : Folded absolute names) (hne : names ≠ []) :
    Text.splitOn '/' ("/".intercalate names) = names :=
  splitOn_intercalate hne fun c hc => (h.leadsOn c hc).noSlash

theorem isAbsolute_written (h : Folded absolute names) :
    isAbsolute (written absolute names) = absolute := by
  cases absolute with
  | true => exact isAbsolute_iff.2 ⟨_, rfl⟩
  | false =>
    rw [Bool.eq_false_iff, ne_eq, isAbsolute_iff]
    rintro ⟨r, hr⟩
    have hsplit := congrArg (Text.splitOn '/') hr
    rw [splitOn_absolute, written, if_neg Bool.false_ne_true] at hsplit
    split_ifs at hsplit with hnil
    · rw [splitOn_name (by decide)] at hsplit
      exact absurd (List.cons.inj hsplit).1 (by decide)
    · rw [splitOn_names h hnil] at hsplit
      exact (h.leadsOn "" (hsplit ▸ List.mem_cons_self)).ne_empty rfl

theorem pieces_written (h : Folded absolute names) : pieces (written absolute names) =
    if names = [] then [if absolute then "" else "."] else names := by
  rw [pieces, isAbsolute_written h, written]
  by_cases hnil : names = []
  · subst hnil
    cases absolute <;> rfl
  · rw [if_neg hnil, if_neg hnil]
    cases absolute with
    | true => rw [if_pos rfl, if_pos rfl, splitOn_absolute, List.tail_cons, splitOn_names h hnil]
    | false => rw [if_neg Bool.false_ne_true, if_neg Bool.false_ne_true, splitOn_names h hnil]

theorem components_eq_filter (p : String) :
    components p = (pieces p).filter fun c => c ≠ "" ∧ c ≠ "." := by
  rw [components, pieces]
  split_ifs with h
  · obtain ⟨r, rfl⟩ := isAbsolute_iff.1 h
    rw [splitOn_absolute, List.tail_cons]
    exact List.filter_cons_of_neg (by simp)
  · rfl

/-- The names along which a path is written are read from it again. -/
theorem cleanComponents_written (h : Folded absolute names) :
    cleanComponents (written absolute names) = names := by
  have hcs : components (written absolute names) = names := by
    rw [components_eq_filter, pieces_written h]
    by_cases hnil : names = []
    · subst hnil
      cases absolute <;> rfl
    · rw [if_neg hnil]
      exact List.filter_eq_self.2 fun c hc =>
        decide_eq_true ⟨(h.leadsOn c hc).ne_empty, (h.leadsOn c hc).ne_dot⟩
  rw [cleanComponents, isAbsolute_written h, hcs, h.foldl_cleanStep]

theorem endsWith_iff {p : String} : Text.endsWith "/" p = true ↔ ∃ d, p = d ++ "/" := by
  rw [Text.endsWith, Chars.endsWith, List.isSuffixOf_iff_suffix]
  constructor
  · rintro ⟨d, hd⟩
    exact ⟨String.ofList d, String.toList_inj.1 (by rw [← hd]; simp)⟩
  · rintro ⟨d, rfl⟩
    exact ⟨d.toList, by simp⟩

end Written

/-! ## Canonical paths -/

/-- Nothing in the path could be left out: it is a dot or the root, or all its pieces lead on or up,
and it does not end with a slash. Two dots come first, and not from the root. -/
structure Canonical (p : String) : Prop where
  ne_empty : p ≠ ""
  pieces : p = "." ∨ p = "/" ∨ ∀ c ∈ pieces p, c ≠ "" ∧ c ≠ "."
  slash : p = "/" ∨ Text.endsWith "/" p = false
  ups : ∃ n rest, Path.pieces p = List.replicate n ".." ++ rest ∧ ".." ∉ rest ∧
    (isAbsolute p = true → n = 0)

section Canonical

variable {p : String}

theorem splitOn_ne_nil (p : String) : Text.splitOn '/' p ≠ [] :=
  fun h => Chars.splitBy_ne_nil _ _ (List.map_eq_nil_iff.1 h)

/-- Behind a slash at the end stands an empty piece. -/
theorem empty_mem_pieces (h : Text.endsWith "/" p = true) : "" ∈ pieces p := by
  obtain ⟨d, rfl⟩ := endsWith_iff.1 h
  have hsplit : Text.splitOn '/' (d ++ "/") = Text.splitOn '/' d ++ [""] := by
    have := splitOn_append d ""
    rwa [String.append_empty] at this
  rw [pieces, hsplit, List.tail_append_of_ne_nil (splitOn_ne_nil d), ← apply_ite (· ++ [""])]
  exact List.mem_append_right _ (List.mem_singleton_self _)

theorem canonical_written {absolute : Bool} {names : List String} (h : Folded absolute names) :
    Canonical (written absolute names) := by
  by_cases hnil : names = []
  · subst hnil
    cases absolute with
    | true => exact ⟨by decide, by decide, by decide, 0, [""], rfl, by decide, fun _ => rfl⟩
    | false => exact ⟨by decide, by decide, by decide, 0, ["."], rfl, by decide, fun _ => rfl⟩
  · have hpieces := pieces_written h
    rw [if_neg hnil] at hpieces
    refine ⟨?_, ?_, ?_, ?_⟩
    · intro he
      rw [he] at hpieces
      exact (h.leadsOn "" (hpieces ▸ List.mem_singleton_self _)).ne_empty rfl
    · rw [hpieces]
      exact Or.inr (Or.inr fun c hc => ⟨(h.leadsOn c hc).ne_empty, (h.leadsOn c hc).ne_dot⟩)
    · refine Or.inr (Bool.eq_false_iff.2 fun he => ?_)
      exact (h.leadsOn "" (hpieces ▸ empty_mem_pieces he)).ne_empty rfl
    · rw [hpieces, isAbsolute_written h]
      exact h.split

theorem slash_notMem_of_mem_pieces {c : String} (h : c ∈ pieces p) : '/' ∉ c.toList := by
  have hmem : c ∈ Text.splitOn '/' p := by
    rw [pieces] at h
    split_ifs at h
    · exact List.mem_of_mem_tail h
    · exact h
  exact Text.notMem_of_mem_splitOn hmem

theorem written_pieces (p : String) : written (isAbsolute p) (pieces p) = p := by
  rw [written, pieces]
  split_ifs with h hnil
  · obtain ⟨r, rfl⟩ := isAbsolute_iff.1 h
    rw [splitOn_absolute, List.tail_cons, Text.intercalate_splitOn rfl]
  · exact absurd hnil (splitOn_ne_nil p)
  · exact Text.intercalate_splitOn rfl p

/-- The canonical paths are those along names that lead up first and then on. -/
theorem canonical_iff : Canonical p ↔
    ∃ names, Folded (isAbsolute p) names ∧ p = written (isAbsolute p) names := by
  constructor
  · intro h
    have hnil : ∀ absolute, Folded absolute [] := fun _ =>
      ⟨List.forall_mem_nil _, 0, [], rfl, List.not_mem_nil, fun _ => rfl⟩
    rcases h.pieces with rfl | rfl | hpieces
    · exact ⟨[], hnil _, rfl⟩
    · exact ⟨[], hnil _, rfl⟩
    · exact ⟨pieces p, ⟨fun c hc =>
        ⟨slash_notMem_of_mem_pieces hc, (hpieces c hc).1, (hpieces c hc).2⟩, h.ups⟩,
        (written_pieces p).symm⟩
  · rintro ⟨names, hnames, hp⟩
    rw [hp]
    exact canonical_written hnames

end Canonical

/-! ## Cleaning -/

/-- The path along the names that are left. -/
def tidy (p : String) : String := written (isAbsolute p) (cleanComponents p)

section Clean

variable {p q : String}

theorem canonical_tidy (p : String) : Canonical (tidy p) :=
  canonical_written (folded_cleanComponents p)

theorem isAbsolute_tidy (p : String) : isAbsolute (tidy p) = isAbsolute p :=
  isAbsolute_written (folded_cleanComponents p)

theorem cleanComponents_tidy (p : String) : cleanComponents (tidy p) = cleanComponents p :=
  cleanComponents_written (folded_cleanComponents p)

theorem place_tidy (directory : List String) (p : String) :
    place directory (tidy p) = place directory p := by
  rw [place_eq, place_eq directory p, cleanComponents_tidy, isAbsolute_tidy]

theorem tidy_eq_self_iff : tidy p = p ↔ Canonical p := by
  constructor
  · intro h
    exact h ▸ canonical_tidy p
  · intro h
    obtain ⟨names, hnames, hp⟩ := canonical_iff.1 h
    have hleft : cleanComponents p = names := by
      conv_lhs => rw [hp]
      exact cleanComponents_written hnames
    rw [tidy, hleft, ← hp]

/-- A path leads on from some directory above, or from the root. -/
theorem exists_place_eq (p : String) : ∃ n rest, cleanComponents p = List.replicate n ".." ++ rest ∧
    (isAbsolute p = true → n = 0) ∧ ∀ directory,
      place directory p = rest.reverse ++ if isAbsolute p then [] else directory.drop n := by
  have h := folded_cleanComponents p
  obtain ⟨n, rest, hnames, hrest, hroot⟩ := h.split
  refine ⟨n, rest, hnames, hroot, fun directory => ?_⟩
  have hleads : ∀ c ∈ rest, LeadsOn c := fun c hc =>
    h.leadsOn c (hnames ▸ List.mem_append_right _ hc)
  rw [place_eq, hnames, List.foldl_append, foldl_onward_ups, foldl_onward_names hleads hrest]
  split_ifs with ha
  · rw [List.drop_nil]
  · rfl

/-- Paths that lead to the same places have one tidy path. -/
theorem tidy_eq_iff : tidy p = tidy q ↔ ∀ directory, place directory p = place directory q := by
  constructor
  · intro h directory
    rw [← place_tidy, h, place_tidy]
  · intro h
    obtain ⟨n, rest, hp, hproot, hpplace⟩ := exists_place_eq p
    obtain ⟨m, rest', hq, hqroot, hqplace⟩ := exists_place_eq q
    simp only [hpplace, hqplace] at h
    obtain rfl : rest = rest' := by simpa using h []
    have hdrop := fun directory => List.append_cancel_left (h directory)
    rw [tidy, tidy, hp, hq]
    cases ha : isAbsolute p <;> cases hb : isAbsolute q <;> rw [ha, hb] at hdrop
    · have hlength := congrArg List.length (hdrop (List.replicate (n + m) ""))
      simp at hlength
      obtain rfl : n = m := hlength.symm
      rfl
    · simpa using congrArg List.length (hdrop (List.replicate (n + 1) ""))
    · simpa using congrArg List.length (hdrop (List.replicate (m + 1) ""))
    · rw [hproot ha, hqroot hb]

/-- Cleaning writes slashes in place of the backslashes of the tidy path. -/
theorem clean_eq (p : String) : clean p = Text.replace "\\" "/" (tidy p) := by
  have hnil : "/".intercalate (cleanComponents p) = "" ↔ cleanComponents p = [] := by
    constructor
    · intro he
      by_contra hne
      have hsplit := splitOn_names (folded_cleanComponents p) hne
      rw [he] at hsplit
      have hleads := (folded_cleanComponents p).leadsOn "" (hsplit ▸ List.mem_singleton_self _)
      exact hleads.ne_empty rfl
    · rintro he
      rw [he]
      rfl
  simp only [clean, tidy, written, hnil]

/-- The text shows the names that are left as they are, with no backslash written as a slash. -/
def ShowsNames (p : String) : Prop := ∀ c ∈ cleanComponents p, '\\' ∉ c.toList

theorem backslash_notMem_clean (p : String) : '\\' ∉ (clean p).toList := by
  rw [clean_eq, Text.replace, Text.onChars, String.toList_ofList]
  exact Chars.notMem_replace (by decide) _

theorem clean_eq_tidy (h : '\\' ∉ (tidy p).toList) : clean p = tidy p := by
  rw [clean_eq, Text.replace_of_char_notMem (by decide) h]

theorem ShowsNames.clean_eq (h : ShowsNames p) : clean p = tidy p := by
  refine clean_eq_tidy ?_
  have hnames : '\\' ∉ ("/".intercalate (cleanComponents p)).toList :=
    Text.char_notMem_intercalate (by decide) h
  rw [tidy, written]
  split_ifs
  · simpa using hnames
  · decide
  · exact hnames

theorem clean_ne_empty (p : String) : clean p ≠ "" := by
  intro h
  rw [← String.toList_inj, clean_eq, Text.replace, Text.onChars, String.toList_ofList,
    show "\\".toList = ['\\'] from rfl, Chars.replace_singleton] at h
  refine (canonical_tidy p).ne_empty (String.toList_inj.1 (List.eq_nil_iff_forall_not_mem.2
    fun c hc => ?_))
  have := List.flatMap_eq_nil_iff.1 h c hc
  split_ifs at this
  simp at this

theorem mem_place {directory : List String} {c : String} (h : c ∈ place directory p) :
    c ∈ directory ∨ c ∈ Text.splitOn '/' p := by
  refine (mem_of_mem_foldl_onward h).imp_left fun hc => ?_
  split_ifs at hc
  · cases hc
  · exact hc

theorem backslash_notMem_of_mem_splitOn {c : String} (h : '\\' ∉ p.toList)
    (hc : c ∈ Text.splitOn '/' p) : '\\' ∉ c.toList :=
  fun hmem => h ((Text.isInfix_of_mem_splitOn hc).subset hmem)

theorem showsNames_of_backslash_notMem (h : '\\' ∉ p.toList) : ShowsNames p := fun _ hc =>
  backslash_notMem_of_mem_splitOn h (List.mem_filter.1 (mem_components hc)).1

/-- A path and its cleaned path lead to the same places just if no name that is left has a
backslash. -/
theorem place_clean_iff : (∀ directory, place directory (clean p) = place directory p) ↔
    ShowsNames p := by
  constructor
  · intro h c hc
    obtain ⟨n, rest, hnames, -, hplace⟩ := exists_place_eq p
    rw [hnames] at hc
    rcases List.mem_append.1 hc with hc | hc
    · rw [List.eq_of_mem_replicate hc]
      decide
    · have hmem : c ∈ place [] (clean p) := by
        rw [h, hplace]
        exact List.mem_append_left _ (List.mem_reverse.2 hc)
      rcases mem_place hmem with hc | hc
      · cases hc
      · exact backslash_notMem_of_mem_splitOn (backslash_notMem_clean p) hc
  · intro h directory
    rw [h.clean_eq, place_tidy]

/-- Without backslashes, cleaning leaves just the canonical paths as they are. -/
theorem clean_eq_self_iff (h : '\\' ∉ p.toList) : clean p = p ↔ Canonical p := by
  rw [(showsNames_of_backslash_notMem h).clean_eq, tidy_eq_self_iff]

theorem ShowsNames.canonical_clean (h : ShowsNames p) : Canonical (clean p) :=
  h.clean_eq ▸ canonical_tidy p

end Clean

/-- A cleaned path is never empty, and has no backslash. Paths that lead to the same places have one
cleaned path. If no name that is left has a backslash, and only then, the cleaned path leads to the
same places; then it is canonical. Cleaning it once more changes nothing just if it is canonical. -/
theorem clean_canonical (p : String) :
    clean p ≠ "" ∧ '\\' ∉ (clean p).toList ∧
    (∀ q, (∀ directory, place directory p = place directory q) → clean p = clean q) ∧
    ((∀ directory, place directory (clean p) = place directory p) ↔ ShowsNames p) ∧
    (ShowsNames p → Canonical (clean p)) ∧
    (clean (clean p) = clean p ↔ Canonical (clean p)) := by
  refine ⟨clean_ne_empty p, backslash_notMem_clean p, fun q h => ?_, place_clean_iff,
    ShowsNames.canonical_clean, clean_eq_self_iff (backslash_notMem_clean p)⟩
  rw [clean_eq, clean_eq, tidy_eq_iff.2 h]

/-- Behind a backslash in a name that is left, two dots take nothing back. The cleaned path is not
canonical, leads elsewhere, and is cleaned further. -/
theorem clean_backslash : clean "a\\..\\b" = "a/../b" ∧ ¬Canonical (clean "a\\..\\b") ∧
    place [] (clean "a\\..\\b") ≠ place [] "a\\..\\b" ∧
    clean (clean "a\\..\\b") ≠ clean "a\\..\\b" := by
  have hclean : clean "a\\..\\b" = "a/../b" := by decide +kernel
  have hagain : clean "a/../b" ≠ "a/../b" := by decide +kernel
  rw [hclean]
  exact ⟨rfl, mt (clean_eq_self_iff (by decide)).2 hagain, by decide +kernel, hagain⟩

end Atlas.Path
