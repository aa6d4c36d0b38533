import Atlas.Golang.Grammar.Type
import Atlas.Proofs.Golang.Phrase

/-!
# Types that are read

Given that the phrases inside do, each phrase of the grammar of types yields types, parameters and
methods whose names are words (`Level.Lexes.takes_typeExpr`).
-/

set_option linter.unusedSectionVars false

namespace Atlas.Golang

open Phrase

/-- Whether the names in the parameters and results of a method are words. -/
def Method.Lexed (m : Method) : Prop := ∀ p ∈ m.parameters ++ m.results, p.Lexed

/-- The phrases of a level leave the end of their tokens, and the names in its types are words. -/
structure Level.Lexes (inner : Level) : Prop where
  type : ∀ lineEnds, (inner.type lineEnds).Yields TypeExpr.Lexed
  expression : ∀ c, (inner.expression c).Keeps
  literal : inner.literal.Keeps
  statement : inner.statement.Keeps

theorem lexes_none : Level.none.Lexes :=
  ⟨fun _ => yields_failure, fun _ => yields_failure, yields_failure, yields_failure⟩

variable {inner : Level} {lineEnds : Bool}

namespace Level.Lexes

/-! ## Names and brackets -/

theorem yields_notes : notes.Yields fun ns => ∀ n ∈ ns, n.Lexed :=
  yields_peek.bind fun _ _ => yields_pure (List.forall_mem_map.2 fun _ _ => .verbatim)

theorem yields_notedType (h : inner.Lexes) (lineEnds : Bool) :
    (notedType inner lineEnds).Yields TypeExpr.Lexed := by
  refine yields_notes.bind fun ns hns => (h.type lineEnds).bind fun t ht => yields_pure ?_
  cases ns with
  | nil => exact ht
  | cons n ns => exact hns n List.mem_cons_self

theorem yields_typeElement (h : inner.Lexes) (lineEnds : Bool) :
    (typeElement inner lineEnds).Yields TypeExpr.Lexed := by
  have hmore := ((keeps_when fun t => !(lineEnds && t.lineBreak)).bind fun _ _ =>
    (keeps_token (·.isSign "|")).bind fun _ _ => h.type lineEnds).many
  have hlist := (h.type lineEnds).bind fun t ht => hmore.bind fun ts hts =>
    yields_pure (Q := fun ts : List TypeExpr => ∀ t ∈ ts, t.Lexed)
      (List.forall_mem_cons.2 ⟨ht, hts⟩)
  refine hlist.withText.bind fun r hr => ?_
  obtain ⟨ts, text⟩ := r
  match ts with
  | [t] => exact yields_pure (hr t List.mem_cons_self)
  | [] | _ :: _ :: _ => exact yields_pure .verbatim

theorem yields_typeArguments (h : inner.Lexes) :
    (typeArguments inner).Yields fun ts => ts ≠ [] ∧ ∀ t ∈ ts, t.Lexed := by
  have hitem := yields_notes.bind fun before hbefore =>
    (h.yields_typeElement false).bind fun t ht => yields_notes.bind fun after hafter =>
      yields_pure (Q := fun ts : List TypeExpr => ts ≠ [] ∧ ∀ t ∈ ts, t.Lexed)
        (a := before ++ t :: after) ⟨by simp, List.forall_mem_append.2
          ⟨hbefore, List.forall_mem_cons.2 ⟨ht, hafter⟩⟩⟩
  refine (keeps_token _).bind fun _ _ => hitem.commaSeparated.bind fun items hitems => ?_
  obtain ⟨hne, hitems⟩ := hitems
  have hflat : items.flatten ≠ [] := by
    obtain ⟨item, hitem⟩ := List.exists_mem_of_ne_nil _ hne
    exact fun hnil => (hitems item hitem).1 (List.flatten_eq_nil_iff.1 hnil item hitem)
  have hend : ∀ after : List TypeExpr, (∀ t ∈ after, t.Lexed) →
      (do let _ ← sign "]"; return items.flatten ++ after).Yields
        fun ts => ts ≠ [] ∧ ∀ t ∈ ts, t.Lexed := fun after hafter =>
    (keeps_token _).bind fun _ _ => yields_pure ⟨List.append_ne_nil_of_left_ne_nil hflat _,
      List.forall_mem_append.2
        ⟨List.forall_mem_flatten.2 fun item hitem => (hitems item hitem).2, hafter⟩⟩
  exact (keeps_token _).maybe.bind fun _ _ =>
    .ite (fun _ => yields_notes.bind hend) fun _ => (yields_pure nofun).bind hend

theorem isTypeName_text {t : Token} (ht : t.Lexed) (h : isTypeName t) : IsTypeName t.text := by
  rw [isTypeName, Bool.and_eq_true, beq_iff_eq, Bool.not_eq_true', ← Bool.not_eq_true,
    List.contains_iff_mem] at h
  exact ⟨ht h.1, h.2⟩

theorem takes_namedType (h : inner.Lexes) (lineEnds : Bool) :
    (namedType inner lineEnds).Takes TypeExpr.Lexed := by
  refine takes_token.bind fun name hname => ?_
  have hname := isTypeName_text hname.1 hname.2
  have hword := (keeps_when fun t => !(lineEnds && t.lineBreak)).bind fun _ _ =>
    (keeps_token (·.isSign ".")).bind fun _ _ => yields_word
  have harguments := (keeps_when fun t => !(lineEnds && t.lineBreak)).bind fun _ _ =>
    h.yields_typeArguments
  refine hword.maybe.bind fun qualifier hqualifier =>
    harguments.maybe.bind fun arguments harguments => ?_
  cases qualifier with
  | none =>
    have hbase : (TypeExpr.name name.text).IsBase := .name hname
    cases arguments with
    | none => exact yields_pure (.base hbase)
    | some ts => exact yields_pure (.generic hbase (harguments ts rfl).1 (harguments ts rfl).2)
  | some n =>
    have hbase : (TypeExpr.qualified name.text n.text).IsBase :=
      .qualified hname (hqualifier n rfl)
    cases arguments with
    | none => exact yields_pure (.base hbase)
    | some ts => exact yields_pure (.generic hbase (harguments ts rfl).1 (harguments ts rfl).2)

/-! ## Parameters -/

/-- Commas with names after them, up to something else than a comma. -/
inductive NamesFollow : List Token → Prop
  | stop {ts : List Token} : (∀ t ∈ ts.head?, t.isSign "," = false) → NamesFollow ts
  | more {comma name : Token} {ts : List Token} : isTypeName name → NamesFollow ts →
      NamesFollow (comma :: name :: ts)

/-- Behind a first name stand the names that are counted, if no comma follows them. -/
theorem namesFollow_of_afterNames {n : Nat} {name : Token} {ts : List Token}
    (hname : isTypeName name)
    (hend : ∀ t ∈ (afterNames n (name :: ts)).2.head?, t.isSign "," = false) : NamesFollow ts := by
  match ts with
  | [] => exact .stop nofun
  | [t] => exact .stop (by simpa [afterNames, hname] using hend)
  | comma :: next :: ts =>
    rw [afterNames, if_pos hname] at hend
    split at hend
    case isTrue hmore =>
      have hnext := (Bool.and_eq_true_iff.1 hmore).2
      exact .more hnext (namesFollow_of_afterNames hnext hend)
    case isFalse => exact .stop hend

theorem exists_of_afterNames {ts : List Token} (h : 0 < (afterNames 0 ts).1) :
    ∃ name rest, ts = name :: rest ∧ isTypeName name := by
  cases ts with
  | nil => exact absurd h (by simp [afterNames])
  | cons name ts =>
    refine ⟨name, ts, rfl, by_contra fun hname => ?_⟩
    match ts with
    | [] | [_] | _ :: _ :: _ => simp [afterNames, hname] at h

/-- Names with commas between, of which the first is one of a type, are all names of types. -/
theorem typeNames_of_commaSeparated {name : Token} {ts : List Token} (hname : isTypeName name)
    (hts : NamesFollow ts) {names : List Token} {ts' : List Token}
    (h : commaSeparated word (name :: ts) = some (names, ts')) : ∀ t ∈ names, isTypeName t := by
  obtain ⟨first, us, hfirst, hrest⟩ := bind_run h
  obtain ⟨hcons, -⟩ := token_run hfirst
  obtain ⟨rfl, rfl⟩ := List.cons.inj hcons
  obtain ⟨more, vs, hmore, hpure⟩ := bind_run hrest
  obtain ⟨rfl, rfl⟩ := pure_run hpure
  have hkept := many_run (I := fun as us => (∀ t ∈ as, isTypeName t) ∧ NamesFollow us)
    (fun {as us t us'} hI hrun => ?_) ⟨nofun, hts⟩ hmore
  · exact List.forall_mem_cons.2 ⟨hname, by simpa using hkept.1⟩
  · obtain ⟨comma, ws, hcomma, hword⟩ := bind_run hrun
    obtain ⟨rfl, hsign⟩ := token_run hcomma
    obtain ⟨rfl, -⟩ := token_run hword
    cases hI.2 with
    | stop hstop => exact absurd (hstop comma rfl) (by simpa using hsign)
    | more hnext hfollow => exact ⟨List.forall_mem_cons.2 ⟨hnext, hI.1⟩, hfollow⟩

theorem isSign_comma_of_opensType {t : Token} (h : opensType t) : t.isSign "," = false := by
  rw [← Bool.not_eq_true]
  intro hcomma
  simp only [Token.isSign, Bool.and_eq_true, beq_iff_eq] at hcomma
  simp [opensType, hcomma] at h

theorem head?_of_opensTypeAfterName {ts : List Token} (h : opensTypeAfterName lineEnds ts) :
    ∀ t ∈ ts.head?, t.isSign "," = false := by
  cases ts with
  | nil => exact nofun
  | cons t ts =>
    have ht : opensType t := by
      simp only [opensTypeAfterName] at h
      split at h <;> simp_all
    intro u hu
    rw [← Option.some.inj hu]
    exact isSign_comma_of_opensType ht

theorem yields_parameter (h : inner.Lexes) : (parameter inner).Yields Parameter.Lexed := by
  have htype : ∀ {names v}, (∀ n ∈ names, IsTypeName n) →
      (do return Parameter.mk names v (← inner.type false)).Yields Parameter.Lexed :=
    fun hnames => (h.type false).bind fun t ht => yields_pure ⟨hnames, ht⟩
  have hvariadic : ∀ {names}, (∀ n ∈ names, IsTypeName n) →
      (do let _ ← sign "..."; return Parameter.mk names true (← inner.type false)).Yields
        Parameter.Lexed :=
    fun hnames => (keeps_token _).bind fun _ _ => htype hnames
  refine ⟨fun {ts p ts'} hts heq => ?_⟩
  obtain ⟨us, vs, hget, hrun⟩ := bind_run heq
  obtain ⟨rfl, rfl⟩ := pure_run hget
  rcases hnames : afterNames 0 ts with ⟨n, after⟩
  have hfirst : 0 < n → ∃ name rest, ts = name :: rest ∧ isTypeName name := fun hn =>
    exists_of_afterNames (by rwa [hnames])
  simp only [hnames] at hrun
  split at hrun
  case isTrue hone =>
    obtain ⟨name, us, hname, hrest⟩ := bind_run hrun
    obtain ⟨rfl, -⟩ := token_run hname
    obtain ⟨first, rest, hcons, hfirst⟩ := hfirst (by simp_all)
    obtain ⟨rfl, rfl⟩ := List.cons.inj hcons
    have htext := isTypeName_text (hts name List.mem_cons_self) hfirst
    exact (hvariadic (by simpa using htext)).run_after hts (List.suffix_cons _ _) hrest
  split at hrun
  · exact (hvariadic (List.forall_mem_nil _)).run hts hrun
  split at hrun
  case isTrue hmany =>
    simp only [Bool.and_eq_true, decide_eq_true_eq] at hmany
    obtain ⟨names, us, hnames', hrest⟩ := bind_run hrun
    obtain ⟨name, rest, rfl, hname⟩ := hfirst hmany.1.1
    have hfollow := namesFollow_of_afterNames hname
      (by rw [hnames]; exact head?_of_opensTypeAfterName hmany.2)
    have htypes := typeNames_of_commaSeparated hname hfollow hnames'
    obtain ⟨hsuffix, -, hlexed⟩ := (yields_token.commaSeparated).run hts hnames'
    exact (htype (List.forall_mem_map.2 fun t ht =>
      isTypeName_text (hlexed t ht).1 (htypes t ht))).run_after hts hsuffix hrest
  · exact (htype (List.forall_mem_nil _)).run hts hrun

theorem yields_parameters (h : inner.Lexes) :
    (parameters inner).Yields fun ps => ∀ p ∈ ps, p.Lexed :=
  h.yields_parameter.commaList.between _ _

theorem yields_results (h : inner.Lexes) (lineEnds : Bool) :
    (results inner lineEnds).Yields fun ps => ∀ p ∈ ps, p.Lexed := by
  refine yields_peek.bind fun t _ => ?_
  refine .ite (fun _ => yields_pure nofun) fun _ => .ite (fun _ => h.yields_parameters) fun _ => ?_
  refine (h.type lineEnds).bind fun type htype => yields_pure ?_
  exact List.forall_mem_singleton.2 ⟨List.forall_mem_nil _, htype⟩

/-! ## Structs and interfaces -/

theorem keeps_fieldTag (lineEnds : Bool) : (fieldTag lineEnds).Keeps :=
  ((keeps_when _).bind fun _ _ => keeps_token _).maybe.bind fun _ _ => yields_pure trivial

theorem keeps_field (h : inner.Lexes) : (field inner).Keeps := by
  have htag := keeps_fieldTag true
  refine yields_get.bind fun ts _ => .ite (fun _ => ?_) fun _ => ?_
  · exact yields_word.commaSeparated.bind fun _ _ => (h.type true).bind fun _ _ =>
      htag.bind fun _ _ => yields_pure trivial
  · exact (keeps_token _).maybe.bind fun _ _ => (h.takes_namedType true).toYields.bind fun _ _ =>
      htag.bind fun _ _ => yields_pure trivial

theorem keeps_fields (h : inner.Lexes) : (fields inner).Keeps :=
  ((h.keeps_field.separatedItems []).between _ _).bind fun _ _ => yields_pure trivial

theorem yields_interfaceElement (h : inner.Lexes) : (interfaceElement inner).Yields
    fun o => ∀ f ∈ o, ∀ doc line, (f doc line).Lexed := by
  refine yields_peek.bind fun _ _ => yields_peekSecond.bind fun _ _ =>
    .ite (fun _ => ?_) fun _ => ?_
  · refine yields_word.bind fun name _ => h.yields_parameters.bind fun ps hps =>
      (h.yields_results true).bind fun rs hrs => yields_pure ?_
    intro f hf doc line
    rw [← Option.some.inj hf]
    exact List.forall_mem_append.2 ⟨hps, hrs⟩
  · exact (h.yields_typeElement true).bind fun _ _ => yields_pure nofun

theorem yields_methods (h : inner.Lexes) : (methods inner).Yields fun ms => ∀ m ∈ ms, m.Lexed := by
  refine yields_peek.bind fun t _ =>
    ((h.yields_interfaceElement.separatedItems _).between _ _).bind fun items hitems =>
      yields_pure fun m hm => ?_
  obtain ⟨o, ho, hm⟩ := List.mem_filterMap.1 hm
  obtain ⟨doc, item, hitem, rfl⟩ := exists_of_mem_documented ho
  obtain ⟨f, hf, rfl⟩ := Option.map_eq_some_iff.1 hm
  exact hitems item hitem f hf doc item.first

/-! ## Types -/

theorem lexed_interface {ms : List Method} (h : ∀ m ∈ ms, m.Lexed) :
    (TypeExpr.interface ms).Lexed :=
  .interface (fun m hm p hp => (h m hm p hp).1) fun m hm p hp => (h m hm p hp).2

theorem lexed_function {ps rs : List Parameter} (hps : ∀ p ∈ ps, p.Lexed)
    (hrs : ∀ p ∈ rs, p.Lexed) : (TypeExpr.function ps rs).Lexed :=
  have h := List.forall_mem_append.2 ⟨hps, hrs⟩
  .function (fun p hp => (h p hp).1) fun p hp => (h p hp).2

theorem lexed_foldr {f : Direction → TypeExpr → TypeExpr} (hf : ∀ d t, t.Lexed → (f d t).Lexed)
    {t : TypeExpr} (ht : t.Lexed) (ds : List Direction) : (ds.foldr f t).Lexed := by
  induction ds with
  | nil => exact ht
  | cons d ds ih => exact hf d _ ih

theorem takes_channel (h : inner.Lexes) (lineEnds : Bool) :
    (channel inner lineEnds).Takes TypeExpr.Lexed := by
  have harrow : (do
      let arrow ← sign "<-"
      let _ ← keyword "chan"
      return if arrow.comments.isEmpty then Direction.send else .both).Keeps :=
    (keeps_token _).bind fun _ _ => (keeps_token _).bind fun _ _ => yields_pure trivial
  refine (passes_token _).bind fun _ _ => harrow.many.bind fun arrows _ =>
    (keeps_token _).maybe.bind fun o _ => ?_
  cases o with
  | some arrow =>
    exact (h.type lineEnds).bind fun t ht => yields_pure (lexed_foldr (fun _ _ => .channel) ht _)
  | none =>
    exact (h.type lineEnds).bind fun t ht =>
      yields_pure (.channel (lexed_foldr (fun _ _ => .channel) ht _))

theorem takes_wordType (h : inner.Lexes) (lineEnds : Bool) (word : String) :
    (wordType inner lineEnds word).Takes TypeExpr.Lexed := by
  unfold wordType
  split
  · exact (passes_token _).bind fun _ _ => ((h.type false).between _ _).bind fun key hkey =>
      (h.type lineEnds).bind fun value hvalue => yields_pure (.map hkey hvalue)
  · exact h.takes_channel lineEnds
  · exact (passes_token _).bind fun _ _ => h.yields_parameters.bind fun ps hps =>
      (h.yields_results lineEnds).bind fun rs hrs => yields_pure (lexed_function hps hrs)
  · exact (passes_token _).bind fun _ _ => h.keeps_fields.bind fun _ _ => yields_pure .struct
  · exact (passes_token _).bind fun _ _ => h.yields_methods.bind fun ms hms =>
      yields_pure (lexed_interface hms)
  · exact takes_failure

theorem takes_signType (h : inner.Lexes) (lineEnds : Bool) (s : String) :
    (signType inner lineEnds s).Takes TypeExpr.Lexed := by
  unfold signType
  split
  · exact (passes_token _).bind fun _ _ => (h.yields_notedType lineEnds).bind fun t ht =>
      yields_pure (.pointer ht)
  · exact ((h.yields_notedType false).takesBetween _ _).bind fun t ht =>
      yields_pure (.parenthesized ht)
  · exact ((h.expression .inside).maybe.takesBetween _ _).bind fun _ _ =>
      (h.type lineEnds).bind fun t ht => yields_pure (.list ht)
  · exact (passes_token _).bind fun _ _ => (keeps_token _).bind fun _ _ =>
      (h.type lineEnds).bind fun t ht => yields_pure (.channel ht)
  · exact (Takes.withText ((passes_token _).bind fun _ _ => h.type lineEnds)).bind fun _ _ =>
      yields_pure .verbatim
  · exact takes_failure

theorem takes_typeExpr (h : inner.Lexes) (lineEnds : Bool) :
    (typeExpr inner lineEnds).Takes TypeExpr.Lexed :=
  yields_peek.bindTakes fun _ _ => .ite (fun _ => h.takes_namedType lineEnds) fun _ =>
    .ite (fun _ => h.takes_wordType lineEnds _) fun _ =>
      .ite (fun _ => h.takes_signType lineEnds _) fun _ => takes_failure

end Level.Lexes

/-! ## Types that hold items -/

/-- Whether a type is a struct or an interface. -/
def TypeExpr.isBody : TypeExpr → Bool
  | .struct _ | .interface _ => true
  | _ => false

theorem gives_namedType (inner : Level) (lineEnds : Bool) :
    (namedType inner lineEnds).Gives (·.isBody = false) := by
  refine gives_bind fun name => gives_bind fun qualifier => gives_bind fun arguments => ?_
  cases arguments <;> cases qualifier <;> exact gives_pure rfl

theorem gives_channel (inner : Level) (lineEnds : Bool) :
    (channel inner lineEnds).Gives (·.isBody = false) := by
  refine gives_bind fun _ => gives_bind fun arrows => gives_bind fun last => ?_
  cases last with
  | some arrow =>
    refine gives_bind fun t => gives_pure ?_
    cases arrows <;> rfl
  | none => exact gives_bind fun _ => gives_pure rfl

theorem gives_signType (inner : Level) (lineEnds : Bool) (s : String) :
    (signType inner lineEnds s).Gives (·.isBody = false) := by
  unfold signType
  split
  · exact gives_bind fun _ => gives_bind fun _ => gives_pure rfl
  · exact gives_bind fun _ => gives_pure rfl
  · exact gives_bind fun _ => gives_bind fun _ => gives_pure rfl
  · exact gives_bind fun _ => gives_bind fun _ => gives_bind fun _ => gives_pure rfl
  · exact gives_bind fun _ => gives_pure rfl
  · exact gives_failure

/-- A struct or an interface is read as fields or as methods behind its word. -/
theorem body_run {ts ts' : List Token} {type : TypeExpr} (hbody : type.isBody)
    (hrun : typeExpr inner lineEnds ts = some (type, ts')) : ∃ keyword r, ts = keyword :: r ∧
      ((∃ fs, type = .struct fs ∧ keyword.isWord "struct" ∧ fields inner r = some (fs, ts')) ∨
        ∃ ms, type = .interface ms ∧ keyword.isWord "interface" ∧
          methods inner r = some (ms, ts')) := by
  have hplain : ∀ {p : Phrase TypeExpr}, p.Gives (·.isBody = false) → p ts ≠ some (type, ts') :=
    fun hp heq => Bool.false_ne_true ((hp.run heq).symm.trans hbody)
  obtain ⟨t, us, ht, hrest⟩ := bind_run hrun
  obtain ⟨rfl, r, rfl⟩ := peek_run ht
  split at hrest
  · exact absurd hrest (hplain (gives_namedType inner lineEnds))
  split at hrest
  · generalize t.text = word at hrest
    unfold wordType at hrest
    split at hrest
    · exact absurd hrest
        (hplain (gives_bind fun _ => gives_bind fun _ => gives_bind fun _ => gives_pure rfl))
    · exact absurd hrest (hplain (gives_channel inner lineEnds))
    · exact absurd hrest
        (hplain (gives_bind fun _ => gives_bind fun _ => gives_bind fun _ => gives_pure rfl))
    · obtain ⟨keyword, vs, hkeyword, hfields⟩ := bind_run hrest
      obtain ⟨fs, ws, hfs, hpure⟩ := bind_run hfields
      obtain ⟨rfl, rfl⟩ := pure_run hpure
      exact ⟨keyword, vs, (token_run hkeyword).1, .inl ⟨fs, rfl, (token_run hkeyword).2, hfs⟩⟩
    · obtain ⟨keyword, vs, hkeyword, hmethods⟩ := bind_run hrest
      obtain ⟨ms, ws, hms, hpure⟩ := bind_run hmethods
      obtain ⟨rfl, rfl⟩ := pure_run hpure
      exact ⟨keyword, vs, (token_run hkeyword).1, .inr ⟨ms, rfl, (token_run hkeyword).2, hms⟩⟩
    · exact absurd hrest nofun
  split at hrest
  · exact absurd hrest (hplain (gives_signType inner lineEnds _))
  · exact absurd hrest nofun

theorem fields_run {ts ts' : List Token} {fs : List Field}
    (hrun : fields inner ts = some (fs, ts')) : ∃ brace body items us, ts = brace :: body ∧
      brace.isSign "\x7b" ∧ separatedItems [] (field inner) body = some (items, us) ∧
      fs = documented (fun doc (p : Placed (String → Field)) => p.value doc) items := by
  obtain ⟨items, us, hitems, hpure⟩ := bind_run hrun
  obtain ⟨rfl, rfl⟩ := pure_run hpure
  obtain ⟨brace, body, vs, rfl, hbrace, hbody⟩ := between_run hitems
  exact ⟨brace, body, items, vs, rfl, hbrace, hbody, rfl⟩

theorem methods_run {ts ts' : List Token} {ms : List Method}
    (hrun : methods inner ts = some (ms, ts')) : ∃ brace body items us, ts = brace :: body ∧
      brace.isSign "\x7b" ∧
      separatedItems brace.comments (interfaceElement inner) body = some (items, us) ∧
      ms = (documented (fun doc (p : Placed (Option (String → Nat → Method))) =>
        p.value.map fun f => f doc p.first) items).filterMap id := by
  obtain ⟨t, vs, ht, hrest⟩ := bind_run hrun
  obtain ⟨rfl, r, rfl⟩ := peek_run ht
  obtain ⟨items, us, hitems, hpure⟩ := bind_run hrest
  obtain ⟨rfl, rfl⟩ := pure_run hpure
  obtain ⟨brace, body, ws, heq, hbrace, hbody⟩ := between_run hitems
  obtain ⟨rfl, rfl⟩ := List.cons.inj heq
  exact ⟨t, r, items, ws, rfl, hbrace, hbody, rfl⟩

end Atlas.Golang
