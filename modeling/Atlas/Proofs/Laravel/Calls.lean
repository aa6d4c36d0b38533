import Atlas.Laravel.Rules
import Atlas.Proofs.Pattern
import Atlas.Proofs.Words

/-!
# Calls of fluent chains

A chain is written call by call : an arrow with blanks around it, a name, and arguments in brackets
that hold no closing one (`Link`). The patterns of routes and of columns have a group for chains,
and its texts are just the written chains (`texts_chainPattern`).

Such a text is read once more, by passes that each look for the next arrow and the next brackets
(`nextCall?`). Every pass leaves less than it found, so the passes end on any text
(`reads_iff`). On a written chain each of them finds the arrow and the brackets that were written
there, whatever the arguments hold (`nextCall?_text_append`), so the calls are read as they were
written (`chains_read_back`). The chains of the routes and the columns that the rules find are of
this kind (`readsChain_of_rules`).
-/

set_option linter.unusedSectionVars false

namespace Atlas

/-! ## Blanks and words -/

namespace Chars

/-- The blanks, by their code points. -/
def blankCodes : List ℕ :=
  List.range' 9 5 ++ [0x20, 0x85, 0xA0, 0x1680] ++ List.range' 0x2000 11 ++
    [0x2028, 0x2029, 0x202F, 0x205F, 0x3000]

theorem isBlank_iff {c : Char} : isBlank c = true ↔ c.toNat ∈ blankCodes := by
  simp only [isBlank, blankCodes, Bool.or_eq_true, Bool.and_eq_true, decide_eq_true_eq, beq_iff_eq,
    List.mem_append, List.mem_range'_1, List.mem_cons, List.not_mem_nil, or_false]
  omega

/-- No blank stands in a word. -/
theorem isBlank_of_isWordChar {c : Char} (h : isWordChar c = true) : isBlank c = false := by
  have hblanks : ∀ n ∈ blankCodes, isWordChar (Char.ofNat n) = false := by decide +kernel
  by_contra hblank
  have hno := hblanks _ (isBlank_iff.1 (Bool.not_eq_false _ ▸ hblank))
  rw [Char.ofNat_toNat, h] at hno
  cases hno

end Chars

namespace Laravel.Php

/-! ## Written chains -/

/-- A call as it stands in a chain, behind an arrow with blanks on both sides. -/
structure Link extends Call where
  lead : List Char
  gap : List Char
  lead_blank : ∀ c ∈ lead, Chars.isBlank c = true
  gap_blank : ∀ c ∈ gap, Chars.isBlank c = true
  name_ne : name ≠ ""
  name_word : ∀ c ∈ name.toList, Chars.isWordChar c = true
  arguments_open : ')' ∉ arguments.toList

/-- The text of a call in a chain. -/
def Link.text (l : Link) : List Char :=
  l.lead ++ "->".toList ++ (l.gap ++ l.name.toList ++ '(' :: (l.arguments.toList ++ [')']))

/-- The text of a chain. -/
def written (links : List Link) : List Char :=
  links.flatMap Link.text

/-- The written chains. -/
def chains : Language Char :=
  {w | ∃ links, written links = w}

/-- A call without blanks around its arguments. -/
def Call.trimmed (c : Call) : Call :=
  { c with arguments := Text.trim c.arguments }

/-! ## The group for chains -/

open Pattern

/-- The pattern of a call in a chain. -/
def linkPattern : Pattern :=
  sequence [.repeated true 0 none (.one .space), .one (.char '-'), .one (.char '>'),
    .repeated true 0 none (.one .space), .repeated true 1 none (.one .word), .one (.char '('),
    .repeated true 0 none (.one (.compl (.union .nothing (.char ')')))), .one (.char ')')].reverse

/-- The pattern of a chain. -/
def chainPattern : Pattern :=
  .repeated true 0 none linkPattern

theorem groups_routeRules : routeRules.groups "chain" = [chainPattern] := by
  simp only [RuleSet.groups, routeRules, Rule.each, Pattern.ofText, Pattern.read?,
    String.toList_append]
  -- the letters of a text are written out before the pattern is read from them
  repeat rw [String.toList_ofList]
  decide +kernel

theorem groups_migrationRules : migrationRules.groups "chain" = [chainPattern] := by
  simp only [RuleSet.groups, migrationRules, Rule.each, Rule.first, Pattern.ofText, Pattern.read?,
    String.toList_append]
  repeat rw [String.toList_ofList]
  decide +kernel

theorem has_compl_char {c d : Char} :
    (CharSet.compl (.union .nothing (.char c))).has d = true ↔ d ≠ c := by
  rw [CharSet.has, CharSet.has, CharSet.has, Bool.false_or, Bool.not_eq_true', ← Bool.not_eq_true,
    CharSet.has_char]

/-- A text of the pattern of a call is that of a call. -/
theorem mem_texts_linkPattern {w : List Char} :
    w ∈ linkPattern.texts ↔ ∃ l : Link, l.text = w := by
  rw [linkPattern, texts_sequence]
  simp only [List.map_cons, List.map_nil, List.prod_cons, List.prod_nil, mul_one, Language.mem_mul,
    mem_texts_repeated_one, mem_texts_char, has_compl_char, Nat.zero_le, true_and]
  constructor
  · rintro ⟨lead, hlead, _, ⟨_, rfl, _, ⟨_, rfl, _, ⟨gap, hgap, _, ⟨name, ⟨hne, hname⟩, _, ⟨_, rfl,
      _, ⟨arguments, hopen, _, rfl, rfl⟩, rfl⟩, rfl⟩, rfl⟩, rfl⟩, rfl⟩, rfl⟩
    refine ⟨⟨⟨String.ofList name, String.ofList arguments⟩, lead, gap, hlead, hgap, ?_, ?_, ?_⟩, ?_⟩
    · exact fun h => by simp [String.ofList_eq_empty_iff.1 h] at hne
    · rwa [String.toList_ofList]
    · rw [String.toList_ofList]
      exact fun h => hopen _ h rfl
    · simp [Link.text]
  · rintro ⟨l, rfl⟩
    have hname : 1 ≤ l.name.toList.length :=
      List.length_pos_of_ne_nil (mt String.toList_eq_nil_iff.1 l.name_ne)
    have hopen : ∀ c ∈ l.arguments.toList, c ≠ ')' := fun c hc h => l.arguments_open (h ▸ hc)
    exact ⟨l.lead, l.lead_blank, _, ⟨_, rfl, _, ⟨_, rfl, _, ⟨l.gap, l.gap_blank, _, ⟨l.name.toList,
      ⟨hname, l.name_word⟩, _, ⟨_, rfl, _, ⟨l.arguments.toList, hopen, _, rfl, rfl⟩, rfl⟩, rfl⟩,
      rfl⟩, rfl⟩, rfl⟩, by simp [Link.text]⟩

theorem texts_chainPattern : chainPattern.texts = chains := by
  ext w
  rw [chainPattern, mem_texts_repeated_none]
  constructor
  · rintro ⟨ws, -, rfl, hws⟩
    choose link hlink using fun u hu => mem_texts_linkPattern.1 (hws u hu)
    refine ⟨ws.attach.map fun u => link u.1 u.2, ?_⟩
    rw [written, List.flatMap_map, List.flatMap_congr fun u _ => hlink u.1 u.2,
      List.flatMap_def, List.attach_map_subtype_val]
  · rintro ⟨links, rfl⟩
    exact ⟨links.map Link.text, Nat.zero_le _, List.flatMap_def,
      List.forall_mem_map.2 fun l _ => mem_texts_linkPattern.2 ⟨l, rfl⟩⟩

/-! ## Passes -/

/-- What one pass takes from a text, the next call, and what it leaves. -/
def nextCall? (s : List Char) : Option (Call × List Char) := do
  let (_, r) ← Chars.cut? "->".toList s
  let (name, r) ← Chars.cut? ['('] r
  let (arguments, r) ← Chars.cut? [')'] r
  return (⟨String.ofList (Chars.trim name), String.ofList (Chars.trim arguments)⟩, r)

/-- Passes over a text take these calls one after another, and the last pass finds none. -/
inductive Reads : List Char → List Call → Prop
  | stop {s : List Char} (h : nextCall? s = none) : Reads s []
  | pass {s r : List Char} {call : Call} {calls : List Call} (h : nextCall? s = some (call, r))
      (hr : Reads r calls) : Reads s (call :: calls)

/-- A pass finds the next arrow, behind it the next opening bracket and behind this the next closing
one. -/
theorem nextCall?_eq_some_iff {s r : List Char} {call : Call} : nextCall? s = some (call, r) ↔
    ∃ before name arguments,
      s = before ++ "->".toList ++ (name ++ '(' :: (arguments ++ ')' :: r)) ∧
      ¬"->".toList <:+: before ++ ['-'] ∧ '(' ∉ name ∧ ')' ∉ arguments ∧
      call = ⟨String.ofList (Chars.trim name), String.ofList (Chars.trim arguments)⟩ := by
  have harrow : "->".toList ≠ [] := by decide
  simp only [nextCall?, Option.bind_eq_bind, Option.bind_eq_some_iff, Prod.exists,
    Chars.cut?_eq_some_iff harrow, Chars.cut?_singleton_eq_some_iff, Option.pure_def,
    Option.some.injEq, Prod.mk.injEq]
  constructor
  · rintro ⟨before, _, ⟨rfl, hfirst⟩, name, _, ⟨rfl, hname⟩, arguments, _, ⟨rfl, harguments⟩, rfl,
      rfl⟩
    exact ⟨before, name, arguments, rfl, hfirst, hname, harguments, rfl⟩
  · rintro ⟨before, name, arguments, rfl, hfirst, hname, harguments, rfl⟩
    exact ⟨before, _, ⟨rfl, hfirst⟩, name, _, ⟨rfl, hname⟩, arguments, _, ⟨rfl, harguments⟩, rfl,
      rfl⟩

theorem chainCallsFrom_succ (fuel : ℕ) (s : List Char) :
    chainCallsFrom (fuel + 1) s = match nextCall? s with
      | none => []
      | some (call, r) => call :: chainCallsFrom fuel r := by
  rw [chainCallsFrom, nextCall?]
  cases Chars.cut? "->".toList s with
  | none => rfl
  | some arrow =>
    dsimp only [Option.bind_eq_bind, Option.bind_some]
    cases Chars.cut? ['('] arrow.2 with
    | none => rfl
    | some opening =>
      dsimp only [Option.bind_some]
      cases Chars.cut? [')'] opening.2 <;> rfl

/-- A pass leaves less than it found. -/
theorem length_lt_of_nextCall? {s r : List Char} {call : Call} (h : nextCall? s = some (call, r)) :
    r.length < s.length := by
  obtain ⟨before, name, arguments, rfl, -⟩ := nextCall?_eq_some_iff.1 h
  simp only [List.length_append, List.length_cons]
  omega

/-- For a text as many passes are enough as it has characters. -/
theorem reads_chainCallsFrom {fuel : ℕ} {s : List Char} (h : s.length ≤ fuel) :
    Reads s (chainCallsFrom fuel s) := by
  induction fuel generalizing s with
  | zero =>
    obtain rfl := List.length_eq_zero_iff.1 (Nat.le_zero.1 h)
    exact .stop rfl
  | succ fuel ih =>
    rw [chainCallsFrom_succ]
    cases hnext : nextCall? s with
    | none => exact .stop hnext
    | some next =>
      have hless := length_lt_of_nextCall? hnext
      exact .pass hnext (ih (by omega))

theorem Reads.unique {s : List Char} {calls calls' : List Call} (h : Reads s calls)
    (h' : Reads s calls') : calls = calls' := by
  induction h generalizing calls' with
  | stop hnone =>
    cases h' with
    | stop => rfl
    | pass hnext => cases hnone.symm.trans hnext
  | pass hnext _ ih =>
    cases h' with
    | stop hnone => cases hnext.symm.trans hnone
    | pass hnext' hr =>
      obtain ⟨rfl, rfl⟩ := Prod.mk.inj (Option.some.inj (hnext.symm.trans hnext'))
      rw [ih hr]

/-- The passes over any text come to an end, and have read its calls then. -/
theorem reads_iff {s : String} {calls : List Call} :
    Reads s.toList calls ↔ chainCalls s = calls := by
  have hreads : Reads s.toList (chainCalls s) := reads_chainCallsFrom String.length_toList.le
  exact ⟨fun h => hreads.unique h, fun h => h ▸ hreads⟩

/-! ## Reading chains -/

/-- In a chain the next arrow and the next brackets are those of its first call. -/
theorem nextCall?_text_append (l : Link) (r : List Char) :
    nextCall? (l.text ++ r) = some (l.trimmed, r) := by
  have hname : Chars.trim l.name.toList = l.name.toList :=
    Chars.trim_eq_self_iff.2
      ⟨fun c hc => Chars.isBlank_of_isWordChar (l.name_word c (List.mem_of_mem_head? hc)),
        fun c hc => Chars.isBlank_of_isWordChar (l.name_word c (List.mem_of_mem_getLast? hc))⟩
  refine nextCall?_eq_some_iff.2 ⟨l.lead, l.gap ++ l.name.toList, l.arguments.toList, ?_, ?_, ?_,
    l.arguments_open, ?_⟩
  · simp [Link.text]
  -- blanks hold no sign of an arrow, and neither blanks nor a name hold a bracket
  · intro harrow
    have hmem : '>' ∈ l.lead ++ ['-'] := harrow.subset (by decide)
    rcases List.mem_append.1 hmem with h | h
    · cases l.lead_blank _ h
    · cases List.mem_singleton.1 h
  · intro hmem
    rcases List.mem_append.1 hmem with h | h
    · cases l.gap_blank _ h
    · cases l.name_word _ h
  · rw [Chars.trim_append_of_isBlank_left l.gap_blank, hname, String.ofList_toList]
    rfl

theorem reads_written (links : List Link) :
    Reads (written links) (links.map fun l => l.trimmed) := by
  induction links with
  | nil => exact .stop rfl
  | cons l links ih => exact .pass (nextCall?_text_append l (written links)) ih

theorem chainCalls_written (links : List Link) :
    chainCalls (String.ofList (written links)) = links.map fun l => l.trimmed :=
  reads_iff.1 (by rw [String.toList_ofList]; exact reads_written links)

/-- The texts of the groups for chains, in the patterns of routes and of columns, are the written
chains. On the text of any calls the passes come to an end, and have read just these calls then, in
order and with no blanks around their arguments. -/
theorem chains_read_back :
    (routeRules.groups "chain").map texts = [chains] ∧
      (migrationRules.groups "chain").map texts = [chains] ∧
      ∀ links : List Link, Reads (written links) (links.map fun l => l.trimmed) ∧
        chainCalls (String.ofList (written links)) = links.map fun l => l.trimmed := by
  refine ⟨?_, ?_, fun links => ⟨reads_written links, chainCalls_written links⟩⟩
  · rw [groups_routeRules, List.map_singleton, texts_chainPattern]
  · rw [groups_migrationRules, List.map_singleton, texts_chainPattern]

example : chainCalls "->name( 'a->(b' )\n  ->  middleware(['auth', \"can:edit\"])" =
    [⟨"name", "'a->(b'"⟩, ⟨"middleware", "['auth', \"can:edit\"]"⟩] := by
  decide +kernel

/-! ## Chains of matches -/

/-- The chain of a match is the text of some calls, and just these are read from it. -/
def ReadsChain (m : Match) : Prop :=
  ∃ links, m.group "chain" = String.ofList (written links) ∧
    chainCalls (m.group "chain") = links.map fun l => l.trimmed

theorem readsChain_of_mem_matchesIn {α : Type} {rs : RuleSet α}
    (hrs : rs.groups "chain" = [chainPattern]) {r : Rule α} (hr : r ∈ rs) {text : String}
    {m : Match} (hm : m ∈ r.matchesIn text) : ReadsChain m := by
  have hwritten : ∃ links, m.group "chain" = String.ofList (written links) := by
    cases hgroup : m.group? "chain" with
    | none => exact ⟨[], by rw [Match.group, hgroup]; rfl⟩
    | some s =>
      obtain ⟨a, ha, hs⟩ := RuleSet.exists_mem_groups hr hm hgroup
      rw [hrs, List.mem_singleton] at ha
      rw [ha, texts_chainPattern] at hs
      obtain ⟨links, hlinks⟩ := hs
      exact ⟨links, by rw [Match.group, hgroup, hlinks, String.ofList_toList]; rfl⟩
  obtain ⟨links, hlinks⟩ := hwritten
  exact ⟨links, hlinks, hlinks ▸ chainCalls_written links⟩

/-- Of every route and every column that the rules find, the calls are read as they were written. -/
theorem readsChain_of_rules (text : String) :
    (∀ r ∈ routeRules, ∀ m ∈ r.matchesIn text, ReadsChain m) ∧
      ∀ r ∈ migrationRules, ∀ m ∈ r.matchesIn text, ReadsChain m :=
  ⟨fun _ hr _ => readsChain_of_mem_matchesIn groups_routeRules hr,
    fun _ hr _ => readsChain_of_mem_matchesIn groups_migrationRules hr⟩

end Laravel.Php

end Atlas
