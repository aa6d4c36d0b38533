import Atlas.Golang.Phrase
import Atlas.Proofs.Golang.Signature

/-!
# What phrases yield

A phrase leaves the end of its tokens, and what it yields is made of the tokens before. So a fact
that holds of the words of a source holds of the names that a phrase reads (`Phrase.Yields`). Types,
expressions, statements and declarations take at least one token (`Phrase.Takes`). Each way of
putting phrases together has a lemma here, and each phrase of the grammar one in turn.
-/

set_option linter.unusedSectionVars false

namespace Atlas.Golang

/-- Whether a token that is a word has the text of one. -/
def Token.Lexed (t : Token) : Prop := t.kind = .word → IsWord t.text

/-- Whether a token ends an item as a semicolon does. -/
def Token.isSemicolon (t : Token) : Bool := t.kind == .sign && [";", "\x00"].contains t.text

namespace Phrase

variable {α β σ : Type}

/-- A phrase leaves the end of its tokens and yields something with a property, given that all
words among the tokens are words. -/
structure Yields (p : Phrase α) (Q : α → Prop) : Prop where
  run : ∀ {ts : List Token} {a : α} {ts' : List Token}, (∀ t ∈ ts, t.Lexed) →
    p ts = some (a, ts') → ts' <:+ ts ∧ Q a

/-- Whether a phrase leaves the end of its tokens. -/
def Keeps (p : Phrase α) : Prop := p.Yields fun _ => True

/-- A phrase that yields something with a property takes at least one token. -/
structure Takes (p : Phrase α) (Q : α → Prop) : Prop extends Yields p Q where
  shorter : ∀ {ts : List Token} {a : α} {ts' : List Token}, (∀ t ∈ ts, t.Lexed) →
    p ts = some (a, ts') → ts'.length < ts.length

/-- Whether a phrase takes at least one token. -/
def Passes (p : Phrase α) : Prop := p.Takes fun _ => True

variable {p q : Phrase α} {f : α → Phrase β} {Q : α → Prop} {R : β → Prop}

/-! ## Runs -/

theorem pure_run {a b : α} {ts ts' : List Token} (h : (pure a : Phrase α) ts = some (b, ts')) :
    a = b ∧ ts = ts' :=
  Prod.mk.inj (Option.some.inj h)

theorem bind_run {b : β} {ts ts' : List Token} (h : (p >>= f) ts = some (b, ts')) :
    ∃ a us, p ts = some (a, us) ∧ f a us = some (b, ts') := by
  obtain ⟨⟨a, us⟩, ha, hb⟩ := Option.bind_eq_some_iff.1 h
  exact ⟨a, us, ha, hb⟩

theorem map_run {g : α → β} {b : β} {ts ts' : List Token} (h : (g <$> p) ts = some (b, ts')) :
    ∃ a, p ts = some (a, ts') ∧ g a = b := by
  rw [map_eq_pure_bind] at h
  obtain ⟨a, us, ha, h⟩ := bind_run h
  obtain ⟨rfl, rfl⟩ := pure_run h
  exact ⟨a, ha, rfl⟩

theorem orElse_run {a : α} {ts ts' : List Token} (h : (p <|> q) ts = some (a, ts')) :
    p ts = some (a, ts') ∨ p ts = none ∧ q ts = some (a, ts') := by
  replace h : (p ts <|> q ts) = some (a, ts') := h
  cases hrun : p ts with
  | none => exact .inr ⟨rfl, by simpa [hrun] using h⟩
  | some r => exact .inl (by simpa [hrun] using h)

theorem token_run {c : Token → Bool} {t : Token} {ts ts' : List Token}
    (h : token c ts = some (t, ts')) : ts = t :: ts' ∧ c t := by
  cases ts with
  | nil => exact absurd h nofun
  | cons u us =>
    replace h : (if u.kind != .ending && c u then (do set us; return u : Phrase Token) else failure)
      (u :: us) = some (t, ts') := h
    split at h
    case isFalse => exact absurd h nofun
    case isTrue hc =>
      obtain ⟨rfl, rfl⟩ := Prod.mk.inj (Option.some.inj h)
      exact ⟨rfl, (Bool.and_eq_true_iff.1 hc).2⟩

theorem peek_run {t : Token} {ts ts' : List Token} (h : peek ts = some (t, ts')) :
    ts' = ts ∧ ∃ r, ts = t :: r := by
  cases ts with
  | nil => exact absurd h nofun
  | cons u us =>
    obtain ⟨rfl, rfl⟩ := Prod.mk.inj (Option.some.inj h)
    exact ⟨rfl, us, rfl⟩

theorem between_run {opening closing : String} {a : α} {ts ts' : List Token}
    (h : between opening closing p ts = some (a, ts')) :
    ∃ t r us, ts = t :: r ∧ t.isSign opening ∧ p r = some (a, us) := by
  obtain ⟨t, r, ht, hrest⟩ := bind_run h
  obtain ⟨b, us, hb, hclose⟩ := bind_run hrest
  obtain ⟨_, vs, -, hpure⟩ := bind_run hclose
  obtain ⟨rfl, -⟩ := pure_run hpure
  exact ⟨t, r, us, (token_run ht).1, (token_run ht).2, hb⟩

/-- What ends an item is a semicolon with the comments before it, or no token. -/
theorem terminator_run {cs : List Comment} {ts ts' : List Token}
    (h : terminator ts = some (cs, ts')) :
    ∃ semicolon : Option Token, (∀ t ∈ semicolon, t.isSemicolon) ∧
      ts = semicolon.toList ++ ts' ∧ cs = semicolon.toList.flatMap (·.comments) := by
  obtain ⟨t, us, ht, hrest⟩ := bind_run h
  obtain ⟨rfl, -⟩ := peek_run ht
  split at hrest
  · obtain ⟨rfl, rfl⟩ := pure_run hrest
    exact ⟨none, nofun, rfl, rfl⟩
  · obtain ⟨u, vs, hu, hpure⟩ := bind_run hrest
    obtain ⟨rfl, rfl⟩ := pure_run hpure
    obtain ⟨hcons, hsemicolon⟩ := token_run hu
    refine ⟨some u, fun t ht => ?_, hcons, (List.flatMap_singleton _ _).symm⟩
    rwa [← Option.some.inj ht]

theorem maybe_run {ts us : List Token} {o : Option α} (h : maybe p ts = some (o, us)) :
    (∃ a, o = some a ∧ p ts = some (a, us)) ∨ o = none ∧ us = ts := by
  rcases orElse_run h with h | ⟨-, h⟩
  · obtain ⟨a, ha, rfl⟩ := map_run h
    exact .inl ⟨a, rfl, ha⟩
  · obtain ⟨rfl, rfl⟩ := pure_run h
    exact .inr ⟨rfl, rfl⟩

/-- What each step keeps of a state and of the tokens that are left is kept by all steps. -/
theorem steps_run {step : σ → Phrase σ} {I : σ → List Token → Prop}
    (hstep : ∀ {s ts s' ts'}, I s ts → step s ts = some (s', ts') → I s' ts') :
    ∀ {n s ts s' ts'}, I s ts → steps step n s ts = some (s', ts') → I s' ts'
  | 0, s, ts, s', ts', h, heq => by
    obtain ⟨rfl, rfl⟩ := pure_run heq
    exact h
  | n + 1, s, ts, s', ts', h, heq => by
    obtain ⟨o, us, ho, hrest⟩ := bind_run heq
    obtain ⟨s₁, rfl, hs₁⟩ | ⟨rfl, rfl⟩ := maybe_run ho
    · exact steps_run hstep (hstep h hs₁) hrest
    · obtain ⟨rfl, rfl⟩ := pure_run hrest
      exact h

/-- What each reading adds and what it leaves of the tokens is kept by all readings. -/
theorem many_run {I : List α → List Token → Prop}
    (hstep : ∀ {as ts a ts'}, I as ts → p ts = some (a, ts') → I (a :: as) ts') {as : List α}
    {ts ts' : List Token} (h : I [] ts) (heq : many p ts = some (as, ts')) : I as.reverse ts' := by
  obtain ⟨bs, hbs, rfl⟩ := map_run heq
  obtain ⟨us, vs, hget, hsteps⟩ := bind_run hbs
  obtain ⟨rfl, rfl⟩ := pure_run hget
  rw [List.reverse_reverse]
  refine steps_run (I := I) (fun {bs ts cs ts'} hI hrun => ?_) h hsteps
  obtain ⟨a, ha, rfl⟩ := map_run hrun
  exact hstep hI ha

/-! ## Results -/

/-- All that a phrase yields has a property, whatever the tokens are. -/
structure Gives (p : Phrase α) (Q : α → Prop) : Prop where
  run : ∀ {ts : List Token} {a : α} {ts' : List Token}, p ts = some (a, ts') → Q a

theorem gives_pure {a : α} (h : Q a) : (pure a : Phrase α).Gives Q :=
  ⟨fun heq => (pure_run heq).1 ▸ h⟩

theorem gives_failure : (failure : Phrase α).Gives Q := ⟨fun heq => absurd heq nofun⟩

/-- What two phrases yield is what the second one yields. -/
theorem gives_bind (hf : ∀ a, (f a).Gives R) : (p >>= f).Gives R where
  run heq := by
    obtain ⟨a, us, -, hb⟩ := bind_run heq
    exact (hf a).run hb

theorem Gives.orElse (hp : p.Gives Q) (hq : q.Gives Q) : (p <|> q).Gives Q where
  run heq := (orElse_run heq).elim hp.run fun h => hq.run h.2

theorem Gives.ite {c : Prop} [Decidable c] (hp : p.Gives Q) (hq : q.Gives Q) :
    (if c then p else q).Gives Q := by
  split
  · exact hp
  · exact hq

/-! ## Sequence and choice -/

theorem Yields.mono {Q' : α → Prop} (hp : p.Yields Q) (h : ∀ a, Q a → Q' a) : p.Yields Q' :=
  ⟨fun hts heq => (hp.run hts heq).imp_right (h _)⟩

theorem Yields.keeps (hp : p.Yields Q) : p.Keeps := hp.mono fun _ _ => trivial

theorem yields_pure {a : α} (h : Q a) : (pure a : Phrase α).Yields Q where
  run _ heq := by
    obtain ⟨rfl, rfl⟩ := pure_run heq
    exact ⟨List.suffix_rfl, h⟩

theorem yields_failure : (failure : Phrase α).Yields Q := ⟨fun _ heq => absurd heq nofun⟩

theorem Yields.run_after (hp : p.Yields Q) {ts us ts' : List Token} {a : α}
    (hts : ∀ t ∈ ts, t.Lexed) (hus : us <:+ ts) (h : p us = some (a, ts')) : ts' <:+ ts ∧ Q a :=
  (hp.run (fun t ht => hts t (hus.subset ht)) h).imp_left (·.trans hus)

theorem Yields.bind (hp : p.Yields Q) (hf : ∀ a, Q a → (f a).Yields R) : (p >>= f).Yields R where
  run hts heq := by
    obtain ⟨a, us, ha, hb⟩ := bind_run heq
    obtain ⟨hsuffix, hQ⟩ := hp.run hts ha
    exact (hf a hQ).run_after hts hsuffix hb

theorem Yields.orElse (hp : p.Yields Q) (hq : q.Yields Q) : (p <|> q).Yields Q where
  run hts heq := by
    rcases orElse_run heq with h | ⟨-, h⟩
    · exact hp.run hts h
    · exact hq.run hts h

theorem Yields.map {g : α → β} (hp : p.Yields Q) (h : ∀ a, Q a → R (g a)) :
    (g <$> p).Yields R := by
  rw [map_eq_pure_bind]
  exact hp.bind fun a ha => yields_pure (h a ha)

theorem Yields.ite {c : Prop} [Decidable c] (hp : c → p.Yields Q) (hq : ¬c → q.Yields Q) :
    (if c then p else q).Yields Q := by
  split
  case isTrue hc => exact hp hc
  case isFalse hc => exact hq hc

/-! ## Progress -/

theorem Takes.mono {Q' : α → Prop} (hp : p.Takes Q) (h : ∀ a, Q a → Q' a) : p.Takes Q' :=
  ⟨hp.toYields.mono h, hp.shorter⟩

theorem Takes.passes (hp : p.Takes Q) : p.Passes := hp.mono fun _ _ => trivial

theorem takes_failure : (failure : Phrase α).Takes Q :=
  ⟨yields_failure, fun _ heq => absurd heq nofun⟩

theorem Takes.bind (hp : p.Takes Q) (hf : ∀ a, Q a → (f a).Yields R) : (p >>= f).Takes R := by
  refine ⟨hp.toYields.bind hf, fun hts heq => ?_⟩
  obtain ⟨a, us, ha, hb⟩ := bind_run heq
  obtain ⟨hsuffix, hQ⟩ := hp.run hts ha
  have hrest := ((hf a hQ).run (fun t ht => hts t (hsuffix.subset ht)) hb).1
  exact Nat.lt_of_le_of_lt hrest.length_le (hp.shorter hts ha)

/-- The second of two phrases takes a token. -/
theorem Yields.bindTakes (hp : p.Yields Q) (hf : ∀ a, Q a → (f a).Takes R) :
    (p >>= f).Takes R := by
  refine ⟨hp.bind fun a ha => (hf a ha).toYields, fun hts heq => ?_⟩
  obtain ⟨a, us, ha, hb⟩ := bind_run heq
  obtain ⟨hsuffix, hQ⟩ := hp.run hts ha
  exact Nat.lt_of_lt_of_le ((hf a hQ).shorter (fun t ht => hts t (hsuffix.subset ht)) hb)
    hsuffix.length_le

theorem Takes.orElse (hp : p.Takes Q) (hq : q.Takes Q) : (p <|> q).Takes Q := by
  refine ⟨hp.toYields.orElse hq.toYields, fun hts heq => ?_⟩
  rcases orElse_run heq with h | ⟨-, h⟩
  · exact hp.shorter hts h
  · exact hq.shorter hts h

theorem Takes.ite {c : Prop} [Decidable c] (hp : c → p.Takes Q) (hq : ¬c → q.Takes Q) :
    (if c then p else q).Takes Q := by
  split
  case isTrue hc => exact hp hc
  case isFalse hc => exact hq hc

/-! ## Tokens -/

theorem yields_get : (get : Phrase (List Token)).Yields fun ts => ∀ t ∈ ts, t.Lexed := by
  refine ⟨fun hts heq => ?_⟩
  obtain ⟨rfl, rfl⟩ := Prod.mk.inj (Option.some.inj heq)
  exact ⟨List.suffix_rfl, hts⟩

theorem yields_peek : peek.Yields fun t => t.Lexed := by
  refine yields_get.bind fun ts hts => ?_
  cases ts with
  | nil => exact yields_failure
  | cons t ts => exact yields_pure (hts t List.mem_cons_self)

theorem yields_peekSecond : peekSecond.Yields fun t => t.Lexed := by
  refine yields_get.bind fun ts hts => ?_
  match ts with
  | [] | [_] => exact yields_failure
  | _ :: t :: _ => exact yields_pure (hts t (by simp))

theorem takes_token {c : Token → Bool} : (token c).Takes fun t => t.Lexed ∧ c t where
  run hts heq := by
    obtain ⟨rfl, hc⟩ := token_run heq
    exact ⟨List.suffix_cons _ _, hts _ List.mem_cons_self, hc⟩
  shorter _ heq := by
    obtain ⟨rfl, -⟩ := token_run heq
    exact Nat.lt_add_one _

theorem yields_token {c : Token → Bool} : (token c).Yields fun t => t.Lexed ∧ c t :=
  takes_token.toYields

theorem takes_word : word.Takes fun t => IsWord t.text :=
  takes_token.mono fun _ ht => ht.1 (by simpa using ht.2)

theorem yields_word : word.Yields fun t => IsWord t.text := takes_word.toYields

theorem passes_token (c : Token → Bool) : (token c).Passes := takes_token.passes

theorem keeps_token (c : Token → Bool) : (token c).Keeps := yields_token.keeps

/-! ## Repetition -/

theorem Yields.maybe (hp : p.Yields Q) : (maybe p).Yields fun o => ∀ a ∈ o, Q a := by
  refine .orElse (hp.map fun a ha b hb => ?_) (yields_pure nofun)
  rwa [← Option.some.inj hb]

theorem Yields.steps {step : σ → Phrase σ} {S : σ → Prop} (hstep : ∀ s, S s → (step s).Yields S)
    (n : Nat) {s : σ} (hs : S s) : (steps step n s).Yields S := by
  refine ⟨fun {us _ _} hus heq => ?_⟩
  refine steps_run (I := fun s ts => ts <:+ us ∧ S s) (fun h hrun => ?_) ⟨List.suffix_rfl, hs⟩ heq
  exact (hstep _ h.2).run_after hus h.1 hrun

theorem Yields.iterate {step : σ → Phrase σ} {S : σ → Prop} {s : σ}
    (hstep : ∀ s, S s → (step s).Yields S) (hs : S s) : (iterate step s).Yields S :=
  yields_get.bind fun _ _ => Yields.steps hstep _ hs

theorem Yields.many (hp : p.Yields Q) : (many p).Yields fun as => ∀ a ∈ as, Q a := by
  refine Yields.map (Q := fun as => ∀ a ∈ as, Q a) (Yields.iterate (fun as has => ?_) nofun)
    fun as has => ?_
  · exact hp.map fun a ha => List.forall_mem_cons.2 ⟨ha, has⟩
  · simpa using has

theorem Yields.commaSeparated (hp : p.Yields Q) :
    (commaSeparated p).Yields fun as => as ≠ [] ∧ ∀ a ∈ as, Q a := by
  refine hp.bind fun a ha => ?_
  refine (Yields.many (yields_token.bind fun _ _ => hp)).bind fun as has => ?_
  exact yields_pure ⟨List.cons_ne_nil _ _, List.forall_mem_cons.2 ⟨ha, has⟩⟩

theorem Yields.commaList (hp : p.Yields Q) : (commaList p).Yields fun as => ∀ a ∈ as, Q a := by
  refine hp.commaSeparated.maybe.bind fun o ho => ?_
  refine yields_token.maybe.bind fun _ _ => yields_pure ?_
  cases o with
  | none => exact nofun
  | some as => exact (ho as rfl).2

theorem Yields.takesBetween (opening closing : String) (hp : p.Yields Q) :
    (between opening closing p).Takes Q :=
  takes_token.bind fun _ _ => hp.bind fun _ ha => yields_token.bind fun _ _ => yields_pure ha

theorem Yields.between (opening closing : String) (hp : p.Yields Q) :
    (between opening closing p).Yields Q :=
  (hp.takesBetween opening closing).toYields

theorem Yields.withText (hp : p.Yields Q) : (withText p).Yields fun r => Q r.1 :=
  yields_get.bind fun _ _ => hp.bind fun _ ha => yields_get.bind fun _ _ => yields_pure ha

theorem Takes.withText (hp : p.Takes Q) : (withText p).Takes fun r => Q r.1 :=
  yields_get.bindTakes fun _ _ => hp.bind fun _ ha => yields_get.bind fun _ _ => yields_pure ha

theorem keeps_terminator : terminator.Keeps := by
  refine yields_peek.bind fun t _ => ?_
  exact .ite (fun _ => yields_pure trivial) fun _ =>
    yields_token.bind fun _ _ => yields_pure trivial

/-! ## Phrases without a meaning -/

namespace Keeps

theorem andThen (hp : p.Keeps) (hf : ∀ a, (f a).Keeps) : (p >>= f).Keeps :=
  hp.bind fun a _ => hf a

theorem thenPure {g : α → β} (hp : p.Keeps) : (p >>= fun a => pure (g a)).Keeps :=
  hp.andThen fun _ => yields_pure trivial

theorem map {g : α → β} (hp : p.Keeps) : (g <$> p).Keeps := Yields.map hp fun _ _ => trivial

theorem choose {c : Prop} [Decidable c] (hp : p.Keeps) (hq : q.Keeps) :
    (if c then p else q).Keeps :=
  .ite (fun _ => hp) fun _ => hq

theorem orElse (hp : p.Keeps) (hq : q.Keeps) : (p <|> q).Keeps := Yields.orElse hp hq

theorem maybe (hp : p.Keeps) : (maybe p).Keeps := (Yields.maybe hp).keeps

theorem iterate {step : σ → Phrase σ} (hstep : ∀ s, (step s).Keeps) (s : σ) :
    (iterate step s).Keeps :=
  Yields.iterate (fun s _ => hstep s) trivial

theorem many (hp : p.Keeps) : (many p).Keeps := (Yields.many hp).keeps

theorem commaSeparated (hp : p.Keeps) : (commaSeparated p).Keeps :=
  (Yields.commaSeparated hp).keeps

theorem commaList (hp : p.Keeps) : (commaList p).Keeps := (Yields.commaList hp).keeps

theorem between (opening closing : String) (hp : p.Keeps) : (between opening closing p).Keeps :=
  Yields.between opening closing hp

theorem thenPasses (hp : p.Keeps) (hf : ∀ a, (f a).Passes) : (p >>= f).Passes :=
  hp.bindTakes fun a _ => hf a

end Keeps

namespace Passes

theorem keeps (hp : p.Passes) : p.Keeps := hp.toYields

theorem andThen (hp : p.Passes) (hf : ∀ a, (f a).Keeps) : (p >>= f).Passes :=
  Takes.bind hp fun a _ => hf a

theorem thenPure {g : α → β} (hp : p.Passes) : (p >>= fun a => pure (g a)).Passes :=
  hp.andThen fun _ => yields_pure trivial

theorem choose {c : Prop} [Decidable c] (hp : p.Passes) (hq : q.Passes) :
    (if c then p else q).Passes :=
  .ite (fun _ => hp) fun _ => hq

theorem orElse (hp : p.Passes) (hq : q.Passes) : (p <|> q).Passes := Takes.orElse hp hq

end Passes

theorem keeps_pure (a : α) : (pure a : Phrase α).Keeps := yields_pure trivial

theorem keeps_nextIs (c : Token → Bool) : (nextIs c).Keeps :=
  yields_peek.keeps.andThen fun _ => keeps_pure _

theorem keeps_guard (c : Prop) [Decidable c] : (guard c : Phrase Unit).Keeps :=
  Keeps.choose (keeps_pure _) yields_failure

theorem keeps_when (c : Token → Bool) : (when c).Keeps :=
  yields_peek.keeps.andThen fun _ => keeps_guard _

/-! ## Items -/

theorem placed_run {before : List Comment} {item : Placed α} {ts ts' : List Token}
    (h : placed before p ts = some (item, ts')) : ∃ t r u vs a, ts = t :: r ∧ ts' = u :: vs ∧
      p ts = some (a, ts') ∧ item = ⟨before ++ t.comments, t.first, u.previous, a⟩ := by
  obtain ⟨t, us, ht, hrest⟩ := bind_run h
  obtain ⟨rfl, r, hr⟩ := peek_run ht
  obtain ⟨a, vs, ha, hend⟩ := bind_run hrest
  obtain ⟨u, ws, hu, hpure⟩ := bind_run hend
  obtain ⟨rfl, rest, hvs⟩ := peek_run hu
  obtain ⟨rfl, rfl⟩ := pure_run hpure
  exact ⟨t, r, u, rest, a, hr, hvs, ha, rfl⟩

theorem Yields.placed (before : List Comment) (hp : p.Yields Q) :
    (placed before p).Yields fun item => Q item.value :=
  yields_peek.bind fun _ _ => hp.bind fun _ ha => yields_peek.bind fun _ _ => yields_pure ha

theorem Yields.endedItems (before : List Comment) (hp : p.Yields Q) :
    (endedItems before p).Yields fun items => ∀ item ∈ items, Q item.value := by
  refine .bind (Q := fun r => ∀ item ∈ r.1, Q item.value) (.iterate (fun r hr => ?_) nofun)
    fun r hr => yields_pure (by simpa using hr)
  exact (hp.placed r.2).bind fun item hitem => keeps_terminator.bind fun _ _ =>
    yields_pure (List.forall_mem_cons.2 ⟨hitem, hr⟩)

theorem Yields.separatedItems (before : List Comment) (hp : p.Yields Q) :
    (separatedItems before p).Yields fun items => ∀ item ∈ items, Q item.value := by
  refine (hp.placed before).maybe.bind fun o ho => ?_
  cases o with
  | none => exact yields_pure nofun
  | some item =>
    refine (Yields.many (keeps_terminator.bind fun c _ => hp.placed c)).bind fun items hitems => ?_
    exact keeps_terminator.maybe.bind fun _ _ =>
      yields_pure (List.forall_mem_cons.2 ⟨ho item rfl, hitems⟩)

theorem exists_of_mem_documentedAfter {g : String → Placed α → β} {b : β} :
    ∀ {previous : Option Nat} {ps : List (Placed α)}, b ∈ documentedAfter g previous ps →
      ∃ doc, ∃ item ∈ ps, b = g doc item
  | _, item :: ps, h => by
    rcases List.mem_cons.1 h with rfl | h
    · exact ⟨_, item, List.mem_cons_self, rfl⟩
    · obtain ⟨doc, item, hitem, rfl⟩ := exists_of_mem_documentedAfter h
      exact ⟨doc, item, List.mem_cons_of_mem _ hitem, rfl⟩

theorem exists_of_mem_documented {g : String → Placed α → β} {b : β} {ps : List (Placed α)}
    (h : b ∈ documented g ps) : ∃ doc, ∃ item ∈ ps, b = g doc item :=
  exists_of_mem_documentedAfter h

end Phrase

end Atlas.Golang
