import Atlas.Proofs.Nested
import Mathlib.Algebra.Order.BigOperators.Group.List
import Mathlib.Data.List.Induction

/-!
# Printed arguments of functions

A server prints the arguments of a function in one text (`printedArguments`), with names in double
quotes where they are no plain words, and lists the modes and names of all arguments beside it
(`modeCodes`, `argumentNames`). What is read is the arguments, if each piece of the text gives the
type and the default of its argument (`arguments_eq_iff`).

A piece with a plain name does, if the word for a default does not stand in its type
(`Argument.reread_printed`). A name in quotes is not found in front of its type: whatever is read
again has all the double quotes of its piece but those of the name
(`Argument.quoteCount_le_of_reread`), and a name in quotes has more of them than the name. So the
arguments are read just if all names are plain (`arguments_printed_iff`).
-/

set_option linter.unusedSectionVars false

namespace Atlas.Sql

variable {a : Argument} {as : List Argument} {keyword : String → Bool}

/-! ## Arguments as they are printed -/

/-- The code of a mode in the catalog. -/
def ArgumentMode.code : ArgumentMode → String
  | .input => "i"
  | .output => "o"
  | .both => "b"
  | .variadic => "v"
  | .table => "t"

/-- What is printed of a mode. -/
def ArgumentMode.mark : ArgumentMode → String
  | .output => "OUT "
  | .both => "INOUT "
  | .variadic => "VARIADIC "
  | .input | .table => ""

/-- A character of a name that is printed as it is. -/
def isPlainChar (c : Char) : Bool := c.isLower || c.isDigit || c == '_'

/-- Whether a name is printed as it is: a lowercase word that starts with no digit and is none of
the server's own. -/
def isPlainName (keyword : String → Bool) (name : String) : Bool :=
  !keyword name && name.toList.all isPlainChar && !name.toList.head?.any Char.isDigit

/-- A name as it is printed, in double quotes unless it is plain. -/
def quoteName (keyword : String → Bool) (name : String) : String :=
  if isPlainName keyword name then name else "\"" ++ Text.replace "\"" "\"\"" name ++ "\""

namespace Argument

/-- What is printed in front of the type. -/
def printedName (keyword : String → Bool) (a : Argument) : String :=
  if a.name = "" then "" else quoteName keyword a.name ++ " "

/-- What is printed of an argument in front of its default. -/
def head (keyword : String → Bool) (a : Argument) : String :=
  a.mode.mark ++ a.printedName keyword ++ a.type

/-- A name that needs no quotes is printed as it is, if there is one. -/
theorem printedName_cases {a : Argument} (h : a.name = "" ∨ isPlainName keyword a.name = true) :
    a.name = "" ∧ a.printedName keyword = "" ∨ a.name ≠ "" ∧ isPlainName keyword a.name = true ∧
      a.printedName keyword = a.name ++ " " := by
  rw [printedName]
  split_ifs with hname
  · exact Or.inl ⟨hname, rfl⟩
  · have hplain := h.resolve_left hname
    exact Or.inr ⟨hname, hplain, by rw [quoteName, if_pos hplain]⟩

/-- An argument as it is printed. -/
def printed (keyword : String → Bool) (a : Argument) : String :=
  a.head keyword ++ (a.default.map (" DEFAULT " ++ ·)).getD ""

end Argument

/-- The arguments that are printed: all but the columns of a result table. -/
def printedOf (as : List Argument) : List Argument :=
  as.filter (·.mode ≠ .table)

/-- The arguments of a function as they are printed. -/
def printedArguments (keyword : String → Bool) (as : List Argument) : String :=
  ", ".intercalate ((printedOf as).map (·.printed keyword))

/-- Items with commas between, or nothing if all are as expected. -/
def listed (expected : String) (items : List String) : String :=
  if ∀ s ∈ items, s = expected then "" else ",".intercalate items

/-- The modes of all arguments as the catalog lists them. -/
def modeCodes (as : List Argument) : String :=
  listed "i" (as.map (·.mode.code))

/-- The names of all arguments as the catalog lists them. -/
def argumentNames (as : List Argument) : String :=
  listed "" (as.map (·.name))

/-! ## Well-formed arguments -/

/-- The text of an expression: its brackets and quotes are balanced, commas stand inside them, and
no blank stands at either end. -/
structure IsExpression (s : String) : Prop where
  ne_empty : s ≠ ""
  trimmed : Text.trim s = s
  balanced : Chars.Balanced ['\''] false s.toList

/-- The text of a type: none of the words that stand around a type is its first or last word. -/
structure IsType (s : String) : Prop extends IsExpression s where
  start : ∀ w ∈ "DEFAULT " :: modeWords, ¬w.toList <+: (s ++ " ").toList
  stop : ¬" DEFAULT".toList <:+ s.toList

namespace Argument

/-- An argument that can be declared. -/
structure IsDeclared (a : Argument) : Prop where
  name : ',' ∉ a.name.toList
  type : IsType a.type
  default : ∀ d ∈ a.default, IsExpression d

/-- The name is printed as it is, if there is one, and the word for a default is not in the type. -/
structure IsLegible (keyword : String → Bool) (a : Argument) : Prop where
  name : a.name = "" ∨ isPlainName keyword a.name = true
  type : ¬" DEFAULT ".toList <:+: a.type.toList

/-- The argument with the type and the default that are read from a piece. -/
def reread (a : Argument) (piece : String) : Argument :=
  { a with
    type := typeAfter a.name (withoutMode (cutDefault (Text.trim piece)).1)
    default := (cutDefault (Text.trim piece)).2 }

theorem type_reread (a : Argument) (piece : String) : (a.reread piece).type =
    typeAfter a.name (withoutMode (cutDefault (Text.trim piece)).1) := by
  rw [reread]

theorem default_reread (a : Argument) (piece : String) :
    (a.reread piece).default = (cutDefault (Text.trim piece)).2 := by
  rw [reread]

/-- The name and the mode of the catalog are taken over. -/
theorem ofPiece_eq_reread {code : Option String}
    (h : (code.map ArgumentMode.ofCode).getD .input = a.mode) (piece : String) :
    ofPiece code a.name piece = a.reread piece := by
  rw [ofPiece, reread, h]

end Argument

/-! ## Places in the catalog -/

theorem ArgumentMode.ofCode_code (m : ArgumentMode) : ofCode m.code = m := by
  cases m <;> rfl

theorem ArgumentMode.code_eq_iff {m n : ArgumentMode} : m.code = n.code ↔ m = n :=
  ⟨fun h => by rw [← ofCode_code m, h, ofCode_code], congrArg code⟩

section Listed

variable {expected : String} {items : List String}

/-- What is listed is read again, or nothing if all is as expected. -/
theorem pieces_listed (hcomma : ∀ s ∈ items, ',' ∉ s.toList) (hempty : "" ∈ items → expected = "") :
    pieces (listed expected items) = if ∀ s ∈ items, s = expected then [] else items := by
  rw [listed]
  split_ifs with h
  · rfl
  · have hne : items ≠ [] := by
      rintro rfl
      exact h (List.forall_mem_nil _)
    have hsplit : Text.splitOn ',' (",".intercalate items) = items :=
      Text.splitOn_intercalate_of_notMem rfl hne hcomma
    have htext : ",".intercalate items ≠ "" := fun he => by
      rw [he] at hsplit
      obtain rfl : [""] = items := hsplit
      exact h (List.forall_mem_singleton.2 (hempty List.mem_cons_self).symm)
    rw [pieces, if_neg htext, hsplit]

end Listed

theorem comma_notMem_code (m : ArgumentMode) : ',' ∉ m.code.toList := by
  cases m <;> decide

theorem pieces_modeCodes (as : List Argument) : pieces (modeCodes as) =
    if ∀ a ∈ as, a.mode = .input then [] else as.map (·.mode.code) := by
  rw [modeCodes, pieces_listed (List.forall_mem_map.2 fun a _ => comma_notMem_code a.mode)
    fun h => by
      obtain ⟨a, -, ha⟩ := List.mem_map.1 h
      cases hm : a.mode <;> simp [hm, ArgumentMode.code] at ha]
  simp only [List.forall_mem_map]
  exact if_congr (forall₂_congr fun a _ => ArgumentMode.code_eq_iff (n := .input)) rfl rfl

theorem pieces_argumentNames (has : ∀ a ∈ as, ',' ∉ a.name.toList) : pieces (argumentNames as) =
    if ∀ a ∈ as, a.name = "" then [] else as.map (·.name) := by
  rw [argumentNames, pieces_listed (List.forall_mem_map.2 has) fun _ => rfl]
  simp only [List.forall_mem_map]

/-- The catalog has the mode of each argument, or none if all are the usual one. -/
theorem mode_of_modeCodes {i : ℕ} (h : as[i]? = some a) :
    ((pieces (modeCodes as))[i]?.map ArgumentMode.ofCode).getD .input = a.mode := by
  rw [pieces_modeCodes]
  split_ifs with hall
  · exact (hall a (List.mem_of_getElem? h)).symm
  · rw [List.getElem?_map, h, Option.map_some, Option.map_some, Option.getD_some,
      ArgumentMode.ofCode_code]

/-- The catalog has the name of each argument, or none if all are without. -/
theorem name_of_argumentNames (has : ∀ a ∈ as, ',' ∉ a.name.toList) {i : ℕ}
    (h : as[i]? = some a) : (pieces (argumentNames as))[i]?.getD "" = a.name := by
  rw [pieces_argumentNames has]
  split_ifs with hall
  · exact (hall a (List.mem_of_getElem? h)).symm
  · rw [List.getElem?_map, h, Option.map_some, Option.getD_some]

/-- The code for a column of a result table stands where there is one. -/
theorem getElem?_modeCodes_ne {i : ℕ} (h : as[i]? = some a) :
    (pieces (modeCodes as))[i]? ≠ some "t" ↔ a.mode ≠ .table := by
  rw [← mode_of_modeCodes h, pieces_modeCodes, not_iff_not]
  split_ifs with hall
  · simp
  · simp only [List.getElem?_map, h, Option.map_some, Option.getD_some, ArgumentMode.ofCode_code,
      Option.some.injEq]
    exact ArgumentMode.code_eq_iff (n := .table)

/-- The entries with a property are those at the places with the property. -/
theorem map_filter_range {α : Type} (p : α → Bool) (l : List α) :
    ((List.range l.length).filter fun i => l[i]?.any p).map (l[·]?) = (l.filter p).map some := by
  induction l using List.reverseRecOn with
  | nil => rfl
  | append_singleton l x ih =>
    have hleft : ∀ i ∈ List.range l.length, (l ++ [x])[i]? = l[i]? := fun i hi =>
      List.getElem?_append_left (List.mem_range.1 hi)
    have hplaces : (List.range l.length).filter (fun i => (l ++ [x])[i]?.any p) =
        (List.range l.length).filter fun i => l[i]?.any p :=
      List.filter_congr fun i hi => by rw [hleft i hi]
    rw [List.length_append, List.length_singleton, List.range_succ, List.filter_append, hplaces,
      List.map_append, List.map_congr_left fun i hi => hleft i (List.mem_of_mem_filter hi), ih,
      List.filter_append, List.map_append]
    cases hx : p x <;> simp [hx]

/-- The places of the printed arguments lead to these. -/
theorem getElem?_printedPlaces (has : ∀ a ∈ as, ',' ∉ a.name.toList) {i : ℕ}
    (h : (printedOf as)[i]? = some a) :
    as[(printedPlaces (pieces (modeCodes as)) (pieces (argumentNames as)))[i]?.getD i]? =
      some a := by
  have hcodes := pieces_modeCodes as
  have hnames := pieces_argumentNames has
  by_cases hplain : (∀ a ∈ as, a.mode = .input) ∧ ∀ a ∈ as, a.name = ""
  · rw [if_pos hplain.1] at hcodes
    rw [if_pos hplain.2] at hnames
    have hall : printedOf as = as := List.filter_eq_self.2 fun a ha => by simp [hplain.1 a ha]
    rw [hcodes, hnames, ← h, hall]
    rfl
  · have hlength : max (pieces (modeCodes as)).length (pieces (argumentNames as)).length =
        as.length := by
      rw [hcodes, hnames]
      split_ifs with hm hn
      · exact absurd ⟨hm, hn⟩ hplain
      all_goals simp
    have hplaces : printedPlaces (pieces (modeCodes as)) (pieces (argumentNames as)) =
        (List.range as.length).filter fun i => as[i]?.any (·.mode ≠ .table) := by
      rw [printedPlaces, hlength]
      refine List.filter_congr fun i hi => ?_
      have ha := List.getElem?_eq_getElem (List.mem_range.1 hi)
      rw [ha, Option.any_some]
      exact decide_eq_decide.2 (getElem?_modeCodes_ne ha)
    have hmap := congrArg (·[i]?) (map_filter_range (·.mode ≠ .table) as)
    rw [← hplaces] at hmap
    simp only [List.getElem?_map] at hmap
    rw [← printedOf, h] at hmap
    obtain ⟨j, hj, hja⟩ := Option.map_eq_some_iff.1 hmap
    rw [hj, Option.getD_some, hja]

/-! ## Pieces -/

/-- What is read of a printed argument depends on its piece only. -/
theorem getElem?_arguments (has : ∀ a ∈ as, ',' ∉ a.name.toList) {text : String}
    (htext : Text.isBlank text = false) {i : ℕ} (h : (printedOf as)[i]? = some a) :
    (arguments text (modeCodes as) (argumentNames as))[i]? =
      (declarations text)[i]?.map a.reread := by
  have hplace := getElem?_printedPlaces has h
  rw [arguments, htext, if_neg Bool.false_ne_true, List.getElem?_mapIdx, ← declarations]
  refine congrArg (Option.map · _) (funext fun piece => ?_)
  dsimp only
  rw [name_of_argumentNames has hplace, Argument.ofPiece_eq_reread (mode_of_modeCodes hplace)]

/-- What is read is the arguments if each of the pieces gives its argument. -/
theorem arguments_eq_iff (has : ∀ a ∈ as, ',' ∉ a.name.toList) {text : String}
    (htext : Text.isBlank text = false) :
    arguments text (modeCodes as) (argumentNames as) = printedOf as ↔
      List.Forall₂ (fun a piece => a.reread piece = a) (printedOf as) (declarations text) := by
  have hlength : (arguments text (modeCodes as) (argumentNames as)).length =
      (declarations text).length := by
    rw [arguments, htext, if_neg Bool.false_ne_true, List.length_mapIdx]
    rfl
  rw [List.forall₂_iff_get]
  constructor
  · intro h
    refine ⟨by rw [← hlength, h], fun i hi hd => ?_⟩
    have hi' := List.getElem?_eq_getElem hi
    have hget := getElem?_arguments has htext hi'
    rw [h, hi', List.getElem?_eq_getElem hd, Option.map_some, Option.some.injEq] at hget
    exact hget.symm
  · rintro ⟨hd, h⟩
    refine List.ext_getElem? fun i => ?_
    by_cases hi : i < (printedOf as).length
    · have hi' := List.getElem?_eq_getElem hi
      rw [getElem?_arguments has htext hi', hi', List.getElem?_eq_getElem (hd ▸ hi),
        Option.map_some, Option.some.injEq]
      exact h i hi (hd ▸ hi)
    · rw [List.getElem?_eq_none (by omega), List.getElem?_eq_none (by omega)]

/-! ## What is read of a piece -/

/-- A piece is cut at the first place where the word for a default stands. -/
theorem cut?_default_eq_some_iff {s t d : String} : Text.cut? " DEFAULT " s = some (t, d) ↔
    s = t ++ " DEFAULT " ++ d ∧ ¬" DEFAULT ".toList <:+: (t ++ " DEFAULT").toList := by
  simp only [Text.cut?, Option.map_eq_some_iff, Prod.exists, Prod.mk.injEq,
    Chars.cut?_eq_some_iff (show " DEFAULT ".toList ≠ [] by decide)]
  constructor
  · rintro ⟨x, y, ⟨hs, hx⟩, rfl, rfl⟩
    refine ⟨String.toList_inj.1 ?_, ?_⟩
    · rw [hs]
      simp
    · rw [String.toList_append, @String.toList_ofList x]
      exact hx
  · rintro ⟨rfl, ht⟩
    refine ⟨t.toList, d.toList, ⟨by simp, ?_⟩, String.ofList_toList, String.ofList_toList⟩
    rw [String.toList_append] at ht
    exact ht

theorem cutDefault_of_not_isInfix {s : String} (h : ¬" DEFAULT ".toList <:+: s.toList) :
    cutDefault s = (s, none) := by
  rw [cutDefault, Text.cut?, Chars.cut?_eq_none.2 h]
  rfl

theorem cutDefault_append {t : String} (h : ¬" DEFAULT ".toList <:+: (t ++ " DEFAULT").toList)
    (d : String) :
    cutDefault (t ++ " DEFAULT " ++ d) = (Text.trim t, some (Text.trim d)) := by
  rw [cutDefault, cut?_default_eq_some_iff.2 ⟨rfl, h⟩]

/-- A piece with a default is cut at the word for it, and any other is left as it is. -/
theorem cutDefault_cases (s : String) :
    ¬" DEFAULT ".toList <:+: s.toList ∧ cutDefault s = (s, none) ∨
      ∃ t d, s = t ++ " DEFAULT " ++ d ∧ ¬" DEFAULT ".toList <:+: (t ++ " DEFAULT").toList ∧
        cutDefault s = (Text.trim t, some (Text.trim d)) := by
  cases h : Text.cut? " DEFAULT " s with
  | none =>
    have hs := Chars.cut?_eq_none.1 (Option.map_eq_none_iff.1 h)
    exact Or.inl ⟨hs, cutDefault_of_not_isInfix hs⟩
  | some parts =>
    obtain ⟨hs, hfirst⟩ := cut?_default_eq_some_iff.1 h
    exact Or.inr ⟨parts.1, parts.2, hs, hfirst, by rw [hs, cutDefault_append hfirst]⟩

/-- A word for a mode is taken away in front, and nothing else. -/
theorem withoutMode_cases (s : String) : withoutMode s = s ∨
    ∃ w ∈ modeWords, ∃ t, s = w ++ t ∧ withoutMode s = Text.trimStart t := by
  rw [withoutMode]
  cases h : modeWords.findSome? fun w => Text.dropPrefix? w s with
  | none => exact Or.inl rfl
  | some t =>
    obtain ⟨w, hw, hwt⟩ := List.exists_of_findSome?_eq_some h
    exact Or.inr ⟨w, hw, t, Text.dropPrefix?_eq_some_iff.1 hwt, rfl⟩

/-- The name is taken away in front, and nothing else. -/
theorem typeAfter_cases (name s : String) : typeAfter name s = s ∨
    ∃ t, s = name ++ t ∧ typeAfter name s = Text.trim t := by
  rw [typeAfter]
  cases h : Text.dropPrefix? name s with
  | none => exact Or.inl rfl
  | some t =>
    dsimp only
    split_ifs
    · exact Or.inr ⟨t, Text.dropPrefix?_eq_some_iff.1 h, rfl⟩
    · exact Or.inl rfl

/-! ## Double quotes -/

/-- The double quotes in a text. -/
def quoteCount (s : String) : ℕ := s.toList.count '"'

@[simp] theorem quoteCount_append (s t : String) :
    quoteCount (s ++ t) = quoteCount s + quoteCount t := by
  rw [quoteCount, String.toList_append, List.count_append, quoteCount, quoteCount]

@[simp] theorem quoteCount_trim (s : String) : quoteCount (Text.trim s) = quoteCount s := by
  rw [quoteCount, Text.trim, Text.onChars, String.toList_ofList, Chars.count_trim (by decide),
    quoteCount]

@[simp] theorem quoteCount_trimStart (s : String) :
    quoteCount (Text.trimStart s) = quoteCount s := by
  rw [quoteCount, Text.trimStart, Text.onChars, String.toList_ofList,
    Chars.count_trimStart (by decide), quoteCount]

theorem quoteCount_cutDefault (s : String) :
    quoteCount (cutDefault s).1 + quoteCount ((cutDefault s).2.getD "") = quoteCount s := by
  obtain ⟨-, h⟩ | ⟨t, d, hs, -, h⟩ := cutDefault_cases s
  · rw [h]
    rfl
  · have hmark : quoteCount " DEFAULT " = 0 := by decide
    rw [h, hs]
    simp [hmark]

theorem quoteCount_withoutMode (s : String) : quoteCount (withoutMode s) = quoteCount s := by
  obtain h | ⟨w, hw, t, hs, h⟩ := withoutMode_cases s
  · rw [h]
  · have hzero : ∀ w ∈ modeWords, quoteCount w = 0 := by decide
    rw [h, hs, quoteCount_append, hzero w hw, Nat.zero_add, quoteCount_trimStart]

theorem quoteCount_le_typeAfter (name s : String) :
    quoteCount s ≤ quoteCount (typeAfter name s) + quoteCount name := by
  obtain h | ⟨t, hs, h⟩ := typeAfter_cases name s
  · rw [h]
    exact Nat.le_add_right _ _
  · rw [h, hs, quoteCount_append, quoteCount_trim, Nat.add_comm]

/-- No double quotes of a piece are lost but those of the name. -/
theorem Argument.quoteCount_le_of_reread {piece : String} (h : a.reread piece = a) :
    quoteCount piece ≤ quoteCount a.type + quoteCount (a.default.getD "") + quoteCount a.name := by
  have htype := (a.type_reread piece).symm.trans (congrArg Argument.type h)
  have hdefault := (a.default_reread piece).symm.trans (congrArg Argument.default h)
  have hcut := quoteCount_cutDefault (Text.trim piece)
  have hle := quoteCount_le_typeAfter a.name (withoutMode (cutDefault (Text.trim piece)).1)
  rw [htype, quoteCount_withoutMode] at hle
  rw [hdefault, quoteCount_trim] at hcut
  omega

/-- Names are all that is left out of the text, so no double quotes are lost but those of names. -/
theorem quoteCount_le_declarations {ps : List String}
    (h : List.Forall₂ (fun a piece => a.reread piece = a) as ps) :
    (ps.map quoteCount).sum ≤ (as.map fun a => quoteCount a.type + quoteCount (a.default.getD "") +
      quoteCount a.name).sum := by
  induction h with
  | nil => exact le_rfl
  | @cons a piece as ps ha _ ih =>
    rw [List.map_cons, List.sum_cons, List.map_cons, List.sum_cons]
    exact Nat.add_le_add (Argument.quoteCount_le_of_reread ha) ih

theorem quoteCount_declarations (text : String) :
    ((declarations text).map quoteCount).sum = quoteCount text := by
  conv_rhs => rw [quoteCount, ← Chars.join_splitTopLevel ['\''] text.toList,
    Chars.count_join (by decide)]
  simp [declarations, quoteCount, Function.comp_def]

theorem quoteCount_printedArguments (keyword : String → Bool) (as : List Argument) :
    quoteCount (printedArguments keyword as) =
      ((printedOf as).map fun a => quoteCount (a.printed keyword)).sum := by
  rw [quoteCount, printedArguments, Text.toList_intercalate, Chars.count_join (by decide)]
  simp [quoteCount, Function.comp_def]

theorem quoteCount_mark (m : ArgumentMode) : quoteCount m.mark = 0 := by
  cases m <;> decide

theorem Argument.quoteCount_printed (keyword : String → Bool) (a : Argument) :
    quoteCount (a.printed keyword) = quoteCount a.type + quoteCount (a.default.getD "") +
      quoteCount (a.printedName keyword) := by
  have hdefault : quoteCount ((a.default.map (" DEFAULT " ++ ·)).getD "") =
      quoteCount (a.default.getD "") := by
    cases a.default with
    | none => rfl
    | some d =>
      have hmark : quoteCount " DEFAULT " = 0 := by decide
      simp [hmark]
  simp only [printed, head, quoteCount_append, quoteCount_mark, hdefault]
  omega

/-- What is doubled is there twice as often, and anything else as often as before. -/
theorem count_double (q c : Char) (s : List Char) :
    (Chars.replace [q] [q, q] s).count c = if c = q then 2 * s.count c else s.count c := by
  rw [Chars.replace_singleton]
  induction s with
  | nil => simp
  | cons d s ih =>
    rw [List.flatMap_cons, List.count_append, ih, List.count_cons]
    by_cases hd : d = q <;> by_cases hc : c = q <;> grind

/-- A quoted name has more double quotes than the name. -/
theorem quoteCount_lt_quoteName {name : String} (h : isPlainName keyword name = false) :
    quoteCount name < quoteCount (quoteName keyword name) := by
  have hdouble : quoteCount (Text.replace "\"" "\"\"" name) = 2 * quoteCount name := by
    rw [quoteCount, Text.replace, Text.onChars, String.toList_ofList]
    exact count_double '"' '"' name.toList
  have hmark : quoteCount "\"" = 1 := by decide
  rw [quoteName, h, if_neg Bool.false_ne_true, quoteCount_append, quoteCount_append, hdouble, hmark]
  omega

theorem Argument.quoteCount_lt_printedName
    (h : ¬(a.name = "" ∨ isPlainName keyword a.name = true)) :
    quoteCount a.name < quoteCount (a.printedName keyword) := by
  obtain ⟨hname, hplain⟩ := not_or.1 h
  rw [printedName, if_neg hname, quoteCount_append]
  exact Nat.lt_add_right _ (quoteCount_lt_quoteName (Bool.not_eq_true _ ▸ hplain))

theorem Argument.quoteCount_le_printedName (keyword : String → Bool) (a : Argument) :
    quoteCount a.name ≤ quoteCount (a.printedName keyword) := by
  by_cases h : a.name = "" ∨ isPlainName keyword a.name = true
  · obtain ⟨hname, -⟩ | ⟨-, -, hprinted⟩ := Argument.printedName_cases h
    · rw [hname]
      exact Nat.zero_le _
    · rw [hprinted, quoteCount_append]
      exact Nat.le_add_right _ _
  · exact (quoteCount_lt_printedName h).le

/-- If the arguments are read again, their names are printed as they are. -/
theorem isPlainName_of_reread (h : List.Forall₂ (fun a piece => a.reread piece = a) (printedOf as)
    (declarations (printedArguments keyword as))) :
    ∀ a ∈ printedOf as, a.name = "" ∨ isPlainName keyword a.name = true := by
  by_contra! hex
  obtain ⟨a, ha, hname⟩ := hex
  -- over all pieces together, since a quoted name may change where the text is cut
  have hle := quoteCount_le_declarations h
  rw [quoteCount_declarations, quoteCount_printedArguments] at hle
  refine absurd hle (not_le.2 (List.sum_lt_sum _ _ (fun b _ => ?_) ⟨a, ha, ?_⟩))
  · rw [b.quoteCount_printed]
    exact Nat.add_le_add_left (b.quoteCount_le_printedName keyword) _
  · rw [a.quoteCount_printed]
    exact Nat.add_lt_add_left (Argument.quoteCount_lt_printedName (not_or.2 hname)) _

/-! ## Words for defaults -/

theorem isInfix_withoutMode (s : String) : (withoutMode s).toList <:+: s.toList := by
  obtain h | ⟨w, -, t, hs, h⟩ := withoutMode_cases s
  · rw [h]
  · rw [h, hs, Text.trimStart, Text.onChars, String.toList_ofList]
    exact (List.dropWhile_suffix _).isInfix.trans (Text.isSuffix_append w t).isInfix

theorem isInfix_typeAfter (name s : String) : (typeAfter name s).toList <:+: s.toList := by
  obtain h | ⟨t, hs, h⟩ := typeAfter_cases name s
  · rw [h]
  · rw [h, hs]
    exact (Text.isInfix_trimWhile Chars.isBlank t).trans (Text.isSuffix_append name t).isInfix

theorem not_isInfix_cutDefault (s : String) :
    ¬" DEFAULT ".toList <:+: (cutDefault s).1.toList := by
  obtain ⟨hs, h⟩ | ⟨t, d, -, hfirst, h⟩ := cutDefault_cases s
  · rwa [h]
  · rw [h]
    exact fun hin => hfirst ((hin.trans (Text.isInfix_trimWhile Chars.isBlank t)).trans
      (Text.isPrefix_append t " DEFAULT").isInfix)

/-- The word for a default does not stand in a type that is read. -/
theorem Argument.not_isInfix_of_reread {piece : String} (h : a.reread piece = a) :
    ¬" DEFAULT ".toList <:+: a.type.toList := by
  rw [← (a.type_reread piece).symm.trans (congrArg Argument.type h)]
  exact fun hin => not_isInfix_cutDefault (Text.trim piece)
    (hin.trans ((isInfix_typeAfter _ _).trans (isInfix_withoutMode _)))

/-- The word for a default does not stand across an end of a type. -/
theorem IsType.not_isInfix {s : String} (hs : IsType s) (h : ¬" DEFAULT ".toList <:+: s.toList) :
    ¬" DEFAULT ".toList <:+: ' ' :: (s.toList ++ [' ']) := by
  intro hin
  rcases List.infix_cons_iff.1 hin with hstart | hin
  · refine hs.start "DEFAULT " List.mem_cons_self ?_
    rw [String.toList_append]
    exact (List.prefix_cons_inj ' ').1 hstart
  · rcases List.infix_concat_iff.1 hin with ⟨p, hp⟩ | hin
    · have hstop : (p ++ " DEFAULT".toList) ++ [' '] = s.toList ++ [' '] := by
        rw [← hp]
        simp
      exact hs.stop ⟨p, List.append_cancel_right hstop⟩
    · exact h hin

/-- In front of a type the word for a default is not found, where no `F` stands in front of it. -/
theorem IsType.not_isInfix_append {s p : String} (hs : IsType s)
    (h : ¬" DEFAULT ".toList <:+: s.toList) (hp : 'F' ∉ p.toList)
    (hend : p = "" ∨ ∃ q, p = q ++ " ") :
    ¬" DEFAULT ".toList <:+: (p ++ s ++ " DEFAULT").toList := by
  have hblank : ' ' ∉ "DEFAULT".toList := by decide
  intro hin
  have htoList : (p ++ s ++ " DEFAULT").toList =
      (p.toList ++ s.toList) ++ ' ' :: "DEFAULT".toList := by
    simp
  rw [htoList] at hin
  rcases Chars.isInfix_of_append_cons hblank hin with hin | hin
  · refine hs.not_isInfix h ?_
    rcases hend with rfl | ⟨q, rfl⟩
    · exact hin.trans (List.suffix_cons _ _).isInfix
    -- the word has no blank inside, so it stands on one side of the blank in front of the type
    · have hq : (q ++ " ").toList ++ s.toList ++ [' '] =
          q.toList ++ ' ' :: (s.toList ++ [' ']) := by
        simp
      rw [hq] at hin
      rcases Chars.isInfix_of_append_cons hblank hin with hin | hin
      · refine absurd (hin.subset (by decide : 'F' ∈ " DEFAULT ".toList)) ?_
        rwa [String.toList_append] at hp
      · exact hin
  · exact absurd hin.length_le (by decide)

/-! ## Arguments with plain names -/

theorem isPlainChar_of_mem {name : String} (h : isPlainName keyword name = true) {c : Char}
    (hc : c ∈ name.toList) : isPlainChar c = true := by
  rw [isPlainName, Bool.and_eq_true, Bool.and_eq_true, List.all_eq_true] at h
  exact h.1.2 c hc

theorem isBlank_of_isPlainChar {c : Char} (h : isPlainChar c = true) :
    Chars.isBlank c = false := by
  have hbounds : 48 ≤ c.toNat ∧ c.toNat ≤ 57 ∨ c.toNat = 95 ∨ 97 ≤ c.toNat ∧ c.toNat ≤ 122 := by
    have hlower : c.isLower = (decide ('a' ≤ c) && decide (c ≤ 'z')) := rfl
    have hdigit : c.isDigit = (decide ('0' ≤ c) && decide (c ≤ '9')) := rfl
    simp only [isPlainChar, hlower, hdigit, Bool.or_eq_true, Bool.and_eq_true, decide_eq_true_eq,
      beq_iff_eq, Char.le_def, UInt32.le_iff_toNat_le] at h
    rcases h with (⟨h₁, h₂⟩ | ⟨h₁, h₂⟩) | rfl
    · exact Or.inr (Or.inr ⟨h₁, h₂⟩)
    · exact Or.inl ⟨h₁, h₂⟩
    · exact Or.inr (Or.inl rfl)
  simp only [Chars.isBlank, Bool.or_eq_false_iff, Bool.and_eq_false_iff, decide_eq_false_iff_not,
    beq_eq_false_iff_ne]
  omega

theorem head?_printedName (h : a.name = "" ∨ isPlainName keyword a.name = true) :
    ∀ c ∈ (a.printedName keyword).toList.head?, Chars.isBlank c = false := by
  intro c hc
  obtain ⟨-, hprinted⟩ | ⟨hname, hplain, hprinted⟩ := Argument.printedName_cases h
  · rw [hprinted] at hc
    cases hc
  · rw [hprinted, String.toList_append,
      List.head?_append_of_ne_nil _ (mt String.toList_eq_nil_iff.1 hname)] at hc
    exact isBlank_of_isPlainChar (isPlainChar_of_mem hplain (List.mem_of_mem_head? hc))

theorem trim_printedName_append (h : a.name = "" ∨ isPlainName keyword a.name = true)
    (ha : IsType a.type) :
    Text.trim (a.printedName keyword ++ a.type) = a.printedName keyword ++ a.type :=
  Text.trim_append (head?_printedName h) ha.trimmed ha.ne_empty

/-- A printed name is no mode. -/
theorem not_isPrefix_printedName_append (h : a.name = "" ∨ isPlainName keyword a.name = true)
    (ha : IsType a.type) : ∀ w ∈ modeWords,
      ¬w.toList <+: (a.printedName keyword ++ a.type).toList := by
  intro w hw hstart
  obtain ⟨-, hprinted⟩ | ⟨hname, hplain, hprinted⟩ := Argument.printedName_cases h
  · rw [hprinted, String.empty_append] at hstart
    exact ha.start w (List.mem_cons_of_mem _ hw) (hstart.trans (Text.isPrefix_append _ _))
  · obtain ⟨c, r, hc⟩ := List.exists_cons_of_ne_nil (mt String.toList_eq_nil_iff.1 hname)
    have hfirst : ∀ w ∈ modeWords, w.toList.head?.any (!isPlainChar ·) = true := by decide
    rw [hprinted, String.append_assoc, String.toList_append, hc, List.cons_append] at hstart
    have hw := hfirst w hw
    cases hwchars : w.toList with
    | nil => simp [hwchars] at hw
    | cons d ds =>
      rw [hwchars, List.cons_prefix_cons] at hstart
      have hd := isPlainChar_of_mem hplain (hc ▸ List.mem_cons_self)
      simp [hwchars, hstart.1, hd] at hw

/-- The first of the words for modes that a declaration starts with is taken away. -/
theorem withoutMode_append (us : List String) {ws : List String} {w s : String}
    (hwords : modeWords = us ++ w :: ws) (hus : ∀ u ∈ us, ¬u.toList <+: (w ++ s).toList) :
    withoutMode (w ++ s) = Text.trimStart s := by
  have hnone : us.findSome? (Text.dropPrefix? · (w ++ s)) = none :=
    List.findSome?_eq_none_iff.2 fun u hu => Text.dropPrefix?_eq_none (hus u hu)
  rw [withoutMode, hwords, List.findSome?_append, hnone, Option.none_or, List.findSome?_cons,
    Text.dropPrefix?_append]

/-- A mode is taken away in front of what is no mode. -/
theorem withoutMode_mark_append (m : ArgumentMode) {s : String} (htrim : Text.trim s = s)
    (hs : ∀ w ∈ modeWords, ¬w.toList <+: s.toList) : withoutMode (m.mark ++ s) = s := by
  have hstart : Text.trimStart s = s := Text.trimStart_of_trim htrim
  cases m with
  | input | table =>
    rw [ArgumentMode.mark, String.empty_append, withoutMode,
      List.findSome?_eq_none_iff.2 fun w hw => Text.dropPrefix?_eq_none (hs w hw)]
  | both => exact (withoutMode_append [] rfl (by simp)).trans hstart
  | output => exact (withoutMode_append ["INOUT ", "IN "] rfl (by simp)).trans hstart
  | «variadic» =>
    exact (withoutMode_append ["INOUT ", "IN ", "OUT "] rfl (by simp)).trans hstart

theorem typeAfter_printedName_append (h : a.name = "" ∨ isPlainName keyword a.name = true)
    (ha : IsType a.type) : typeAfter a.name (a.printedName keyword ++ a.type) = a.type := by
  obtain ⟨hname, hprinted⟩ | ⟨hname, -, hprinted⟩ := Argument.printedName_cases h
  · rw [hprinted, hname, typeAfter, String.empty_append]
    split <;> simp
  · have hblank : Text.trim (" " ++ a.type) = a.type := by
      rw [Text.trim_space_append, ha.trimmed]
    have hstart : Text.startsWith " " (" " ++ a.type) = true :=
      Text.startsWith_iff.2 (Text.isPrefix_append " " a.type)
    rw [hprinted, String.append_assoc, typeAfter, Text.dropPrefix?_append]
    dsimp only
    rw [if_pos ⟨hname, hstart⟩, hblank]

/-- What is printed in front of a type ends with a blank. -/
theorem mark_append_printedName_eq (keyword : String → Bool) (a : Argument) :
    a.mode.mark ++ a.printedName keyword = "" ∨
      ∃ q, a.mode.mark ++ a.printedName keyword = q ++ " " := by
  rw [Argument.printedName]
  split_ifs with hname
  · rw [String.append_empty]
    cases a.mode with
    | input | table => exact Or.inl rfl
    | output => exact Or.inr ⟨"OUT", rfl⟩
    | both => exact Or.inr ⟨"INOUT", rfl⟩
    | «variadic» => exact Or.inr ⟨"VARIADIC", rfl⟩
  · exact Or.inr ⟨_, String.append_assoc.symm⟩

/-- The characters of a plain name, and the blank behind it. -/
theorem mem_printedName (h : a.name = "" ∨ isPlainName keyword a.name = true) {c : Char}
    (hc : c ∈ (a.printedName keyword).toList) : isPlainChar c = true ∨ c = ' ' := by
  obtain ⟨-, hprinted⟩ | ⟨-, hplain, hprinted⟩ := Argument.printedName_cases h
  · rw [hprinted] at hc
    cases hc
  · rw [hprinted, String.toList_append, List.mem_append] at hc
    exact hc.imp (isPlainChar_of_mem hplain) List.mem_singleton.1

/-- The word for a default is not found in front of that word. -/
theorem not_isInfix_head (ha : a.IsDeclared) (h : a.IsLegible keyword) :
    ¬" DEFAULT ".toList <:+: (a.head keyword ++ " DEFAULT").toList := by
  refine ha.type.not_isInfix_append h.type ?_ (mark_append_printedName_eq keyword a)
  rw [String.toList_append, List.mem_append, not_or]
  refine ⟨?_, fun hF => (mem_printedName h.name hF).elim (by decide) (by decide)⟩
  cases a.mode <;> decide

theorem head_ne_empty (ha : a.IsDeclared) : a.head keyword ≠ "" := fun he =>
  ha.type.ne_empty (String.append_eq_empty_iff.1 he).2

theorem trim_head (ha : a.IsDeclared) (h : a.IsLegible keyword) :
    Text.trim (a.head keyword) = a.head keyword := by
  have hmark : ∀ c ∈ a.mode.mark.toList.head?, Chars.isBlank c = false := by
    cases a.mode <;> rintro c ⟨⟩ <;> decide
  have hne : a.printedName keyword ++ a.type ≠ "" := fun he =>
    ha.type.ne_empty (String.append_eq_empty_iff.1 he).2
  rw [Argument.head, String.append_assoc]
  exact Text.trim_append hmark (trim_printedName_append h.name ha.type) hne

/-- The type and the default are read from what is printed of the argument. -/
theorem Argument.reread_printed (ha : a.IsDeclared) (h : a.IsLegible keyword) :
    a.reread (a.printed keyword) = a := by
  have htype : typeAfter a.name (withoutMode (a.head keyword)) = a.type := by
    rw [head, String.append_assoc, withoutMode_mark_append a.mode
      (trim_printedName_append h.name ha.type) (not_isPrefix_printedName_append h.name ha.type),
      typeAfter_printedName_append h.name ha.type]
  have hcut : cutDefault (Text.trim (a.printed keyword)) = (a.head keyword, a.default) := by
    have hhead := trim_head ha h
    have hfirst := not_isInfix_head ha h
    rw [printed]
    cases hd : a.default with
    | none =>
      rw [Option.map_none, Option.getD_none, String.append_empty, hhead]
      exact cutDefault_of_not_isInfix fun hin =>
        hfirst (hin.trans (Text.isPrefix_append _ _).isInfix)
    | some d =>
      have hexpr := ha.default d hd
      have htrim : Text.trim (a.head keyword ++ " DEFAULT " ++ d) =
          a.head keyword ++ " DEFAULT " ++ d := by
        refine Text.trim_append ?_ hexpr.trimmed hexpr.ne_empty
        rw [String.toList_append,
          List.head?_append_of_ne_nil _ (mt String.toList_eq_nil_iff.1 (head_ne_empty ha))]
        exact (Text.trim_eq_self_iff.1 hhead).1
      rw [Option.map_some, Option.getD_some, ← String.append_assoc, htrim,
        cutDefault_append hfirst, hhead, hexpr.trimmed]
  rw [reread, hcut, htype]

/-- A blank in front of a piece does not matter. -/
theorem Argument.reread_space_append (a : Argument) (s : String) :
    a.reread (" " ++ s) = a.reread s := by
  rw [reread, Text.trim_space_append, ← reread]

/-! ## Printed texts -/

theorem balanced_printed (ha : a.IsDeclared) (h : a.IsLegible keyword) :
    Chars.Balanced ['\''] false (a.printed keyword).toList := by
  have hmark : Chars.Balanced ['\''] false a.mode.mark.toList :=
    Chars.balanced_of_all (by cases a.mode <;> decide)
  have hname : Chars.Balanced ['\''] false (a.printedName keyword).toList := by
    have hother : ∀ c ∈ '\'' :: Chars.marks, ¬(isPlainChar c = true ∨ c = ' ') := fun c hc => by
      have hall : ('\'' :: Chars.marks).all (fun c => !(isPlainChar c || c == ' ')) = true := by
        decide
      simpa using List.all_eq_true.1 hall c hc
    refine Chars.balanced_of_forall fun c hc => ⟨fun hq => ?_, fun hm => ?_⟩
    · exact hother c (List.mem_singleton.1 hq ▸ List.mem_cons_self) (mem_printedName h.name hc)
    · exact hother c (List.mem_cons_of_mem _ hm) (mem_printedName h.name hc)
  have hdefault : Chars.Balanced ['\''] false
      ((a.default.map (" DEFAULT " ++ ·)).getD "").toList := by
    cases hd : a.default with
    | none => exact .nil
    | some d =>
      rw [Option.map_some, Option.getD_some, String.toList_append]
      exact (Chars.balanced_of_all (by decide)).append (ha.default d hd).balanced
  rw [Argument.printed, Argument.head, String.toList_append, String.toList_append,
    String.toList_append]
  exact ((hmark.append hname).append ha.type.balanced).append hdefault

/-- Each argument is a piece of the text, with a blank in front if it is not the first. -/
theorem declarations_printedArguments {ps : List Argument} (has : printedOf as = a :: ps)
    (hbalanced : ∀ b ∈ a :: ps, Chars.Balanced ['\''] false (b.printed keyword).toList) :
    declarations (printedArguments keyword as) =
      a.printed keyword :: ps.map (" " ++ ·.printed keyword) := by
  have hpieces : ∀ w ∈ (a.printed keyword).toList ::
      ps.map (fun b => [' '] ++ (b.printed keyword).toList), Chars.Balanced ['\''] false w := by
    obtain ⟨ha, hps⟩ := List.forall_mem_cons.1 hbalanced
    refine List.forall_mem_cons.2 ⟨ha, List.forall_mem_map.2 fun b hb => ?_⟩
    exact .char (by decide) (by decide) (hps b hb)
  have hjoin : (printedArguments keyword as).toList = Chars.join [',']
      ((a.printed keyword).toList :: ps.map fun b => [' '] ++ (b.printed keyword).toList) := by
    rw [printedArguments, has, Text.toList_intercalate, List.map_cons, List.map_cons]
    refine (Chars.join_append [','] [' '] _ _).trans ?_
    simp [Function.comp_def]
  rw [declarations, hjoin, Chars.splitTopLevel_join (List.forall_mem_singleton.2 (by decide))
    (List.cons_ne_nil _ _) fun w hw => .balanced (hpieces w hw)]
  simp

/-- What is printed of arguments is read again if all of them are legible. -/
theorem forall₂_reread_printed (has : ∀ a ∈ as, a.IsDeclared)
    (h : ∀ a ∈ printedOf as, a.IsLegible keyword) (hne : printedOf as ≠ []) :
    List.Forall₂ (fun a piece => a.reread piece = a) (printedOf as)
      (declarations (printedArguments keyword as)) := by
  have hdeclared : ∀ a ∈ printedOf as, a.IsDeclared := fun a ha => has a (List.mem_of_mem_filter ha)
  obtain ⟨a, ps, hps⟩ := List.exists_cons_of_ne_nil hne
  rw [hps] at h hdeclared ⊢
  rw [declarations_printedArguments hps fun b hb => balanced_printed (hdeclared b hb) (h b hb)]
  obtain ⟨ha, hrest⟩ := List.forall_mem_cons.1 h
  obtain ⟨ha', hrest'⟩ := List.forall_mem_cons.1 hdeclared
  refine .cons (Argument.reread_printed ha' ha) ?_
  rw [List.forall₂_map_right_iff, List.forall₂_same]
  intro b hb
  rw [b.reread_space_append, Argument.reread_printed (hrest' b hb) (hrest b hb)]

theorem isBlank_printedArguments (has : ∀ a ∈ as, a.IsDeclared) (hne : printedOf as ≠ []) :
    Text.isBlank (printedArguments keyword as) = false := by
  obtain ⟨a, ps, hps⟩ := List.exists_cons_of_ne_nil hne
  have ha : a ∈ printedOf as := hps ▸ List.mem_cons_self
  have htype := (has a (List.mem_of_mem_filter ha)).type
  obtain ⟨c, r, hc⟩ := List.exists_cons_of_ne_nil (mt String.toList_eq_nil_iff.1 htype.ne_empty)
  have hblank : Chars.isBlank c = false :=
    (Text.trim_eq_self_iff.1 htype.trimmed).1 c (by rw [hc]; rfl)
  have hmem : c ∈ (printedArguments keyword as).toList := by
    rw [printedArguments, Text.toList_intercalate]
    refine (Chars.isInfix_join (List.mem_map_of_mem (List.mem_map_of_mem ha))).subset ?_
    have hin : c ∈ a.type.toList := hc ▸ List.mem_cons_self
    simp [Argument.printed, Argument.head, hin]
  exact List.all_eq_false.2 ⟨c, hmem, by simp [hblank]⟩

/-- The arguments are read from what a server prints of them just if all that are printed are
legible: a name in quotes is left in front of its type, and a type is cut at the word for a default.
-/
theorem arguments_printed_iff (keyword : String → Bool) {as : List Argument}
    (has : ∀ a ∈ as, a.IsDeclared) :
    arguments (printedArguments keyword as) (modeCodes as) (argumentNames as) = printedOf as ↔
      ∀ a ∈ printedOf as, a.IsLegible keyword := by
  by_cases hne : printedOf as = []
  · rw [arguments_of_isBlank (by rw [printedArguments, hne]; rfl), hne]
    exact iff_of_true rfl (List.forall_mem_nil _)
  rw [arguments_eq_iff (fun a ha => (has a ha).name) (isBlank_printedArguments has hne)]
  refine ⟨fun h a ha => ⟨isPlainName_of_reread h a ha, ?_⟩, fun h =>
    forall₂_reread_printed has h hne⟩
  have htypes : ∀ a ∈ printedOf as, ¬" DEFAULT ".toList <:+: a.type.toList :=
    ((List.forall₂_and_left _ _).1 (h.imp fun _ _ hpiece =>
      ⟨Argument.not_isInfix_of_reread hpiece, hpiece⟩)).1
  exact htypes a ha

/-- Three arguments, the first without a name and the third with a comma in its default, and a
column of a result table. -/
def rowsArguments : List Argument :=
  [⟨"", "numeric(10,2)", .input, none⟩, ⟨"customer", "integer", .input, none⟩,
    ⟨"tags", "text[]", .input, some "'{a,b}'::text[]"⟩, ⟨"total", "bigint", .table, none⟩]

theorem isDeclared_rowsArguments : ∀ a ∈ rowsArguments, a.IsDeclared := by
  have hplain : ∀ {s : List Char}, s.all (fun c => c ∉ ['\''] ∧ c ∉ Chars.marks) = true →
      ∀ {inside}, Chars.Balanced ['\''] inside s := fun h => Chars.balanced_of_all h
  have hscale : Chars.Balanced ['\''] true ("10".toList ++ ',' :: ['2']) :=
    (hplain (by decide)).append (.comma (hplain (by decide)))
  have hnumeric : Chars.Balanced ['\''] false
      ("numeric".toList ++ '(' :: (("10".toList ++ ',' :: ['2']) ++ [')'])) :=
    (hplain (by decide)).append (.bracket (by decide) (by decide) hscale .nil)
  have htext : ∀ {s : List Char}, s.all (fun c => c ∉ ['\''] ∧ c ∉ Chars.marks) = true →
      Chars.Balanced ['\''] false (s ++ '[' :: ([] ++ [']'])) := fun h =>
    (hplain h).append (.bracket (by decide) (by decide) .nil .nil)
  have hcast : Chars.Balanced ['\''] false
      ('\'' :: ("{a,b}".toList ++ '\'' :: ("::text".toList ++ '[' :: ([] ++ [']'])))) :=
    .quote (by decide) (by decide) (htext (by decide))
  have htype : ∀ s ∈ ["numeric(10,2)", "integer", "text[]", "bigint"], IsType s := fun s hs =>
    { ne_empty := by revert s; decide
      trimmed := by revert s; decide
      balanced := by
        revert s
        simp only [List.forall_mem_cons]
        exact ⟨hnumeric, hplain (by decide), htext (s := "text".toList) (by decide),
          hplain (by decide), List.forall_mem_nil _⟩
      start := by revert s; decide
      stop := by revert s; decide }
  intro a ha
  refine ⟨by revert a; decide, htype _ (by revert a; decide), fun d hd => ?_⟩
  obtain rfl : d = "'{a,b}'::text[]" := by revert d a; decide
  exact ⟨by decide, by decide, hcast⟩

/-- The arguments with names and without, but not the column. -/
theorem arguments_rowsArguments :
    arguments "numeric(10,2), customer integer, tags text[] DEFAULT '{a,b}'::text[]" "i,i,i,t"
      ",customer,tags,total" = printedOf rowsArguments := by
  have hlegible : ∀ a ∈ printedOf rowsArguments, a.IsLegible fun _ => false := fun a ha =>
    ⟨by revert a; decide, by revert a; decide⟩
  have hread := (arguments_printed_iff (fun _ => false) isDeclared_rowsArguments).2 hlegible
  have htext : printedArguments (fun _ => false) rowsArguments =
      "numeric(10,2), customer integer, tags text[] DEFAULT '{a,b}'::text[]" := by decide
  rwa [htext] at hread

/-- An argument with a name that is printed in quotes. -/
def orderId : Argument := ⟨"Order Id", "integer", .input, none⟩

/-- The name in quotes is left in front of the type. -/
theorem arguments_orderId :
    orderId.IsDeclared ∧
    printedArguments (fun _ => false) [orderId] = "\"Order Id\" integer" ∧
    arguments "\"Order Id\" integer" (modeCodes [orderId]) (argumentNames [orderId]) =
      [{ orderId with type := "\"Order Id\" integer" }] := by
  have htype : IsType "integer" :=
    { ne_empty := by decide
      trimmed := by decide
      balanced := Chars.balanced_of_all (by decide)
      start := by decide
      stop := by decide }
  exact ⟨⟨by decide, htype, fun d hd => nomatch hd⟩, by decide, by decide⟩

end Atlas.Sql
