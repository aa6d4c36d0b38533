import Atlas.Golang.Grammar.Statement
import Atlas.Proofs.Golang.Grammar.Type

/-!
# Expressions, declarations and statements that are read

Given that the phrases inside do, expressions, declarations and statements leave the end of their
tokens, and the names in the types, parameters and results of declarations are words
(`Declaration.Lexed`). So what holds of types and expressions holds at each depth of the grammar
(`lexes_level`).
-/

set_option linter.unusedSectionVars false

namespace Atlas.Golang

open Phrase

variable {inner : Level}

namespace Level.Lexes

/-! ## Operands -/

theorem keeps_expressionOrType (h : inner.Lexes) : (expressionOrType inner).Keeps :=
  (h.expression _).orElse ((h.type _).keeps.thenPure)

theorem passes_block (h : inner.Lexes) : (block inner).Passes :=
  have hclose := (keeps_token (·.isSign "\x7d")).thenPure
  (passes_token _).andThen fun _ => h.statement.maybe.andThen fun _ =>
    .choose ((keeps_terminator.andThen fun _ => h.statement).many.andThen fun _ =>
      keeps_terminator.maybe.andThen fun _ => hclose) hclose

theorem keeps_literal (h : inner.Lexes) : (Golang.literal inner).Keeps :=
  have helement := (keeps_nextIs (·.isSign "\x7b")).andThen fun _ =>
    .choose h.literal (h.expression .inside)
  (Keeps.between _ _ (Keeps.commaList (helement.andThen fun _ =>
    ((keeps_token _).andThen fun _ => helement).maybe.thenPure))).thenPure

theorem keeps_conversion (h : inner.Lexes) : (conversion inner).Keeps :=
  (Keeps.between _ _ ((h.expression _).andThen fun _ =>
    (keeps_token _).maybe.thenPure)).thenPure

theorem passes_typedValue (h : inner.Lexes) : (typedValue inner).Passes := by
  refine (h.takes_typeExpr false).passes.andThen fun t => ?_
  split
  case h_4 => exact h.keeps_conversion
  all_goals exact h.keeps_literal.orElse h.keeps_conversion

theorem passes_functionValue (h : inner.Lexes) : (functionValue inner).Passes :=
  ((passes_token _).andThen fun _ => h.yields_parameters.keeps.andThen fun _ =>
    (h.yields_results _).keeps.andThen fun _ => h.passes_block.keeps).orElse h.passes_typedValue

theorem passes_bracketValue (h : inner.Lexes) : (bracketValue inner).Passes :=
  ((passes_token _).andThen fun _ => (keeps_token _).andThen fun _ =>
    (keeps_token _).andThen fun _ => (h.type _).keeps.andThen fun _ =>
      h.keeps_literal).orElse h.passes_typedValue

theorem passes_operand (h : inner.Lexes) : (operand inner).Passes := by
  refine yields_peek.keeps.thenPasses fun t => ?_
  split
  case h_4 =>
    exact .choose (h.passes_functionValue.thenPure)
      (.choose (h.passes_typedValue.thenPure)
        ((passes_token _).thenPure))
  case h_5 =>
    exact .choose (Passes.thenPure (h.keeps_expressionOrType.takesBetween _ _))
      (h.passes_bracketValue.thenPure)
  case h_6 => exact takes_failure
  all_goals exact (passes_token _).thenPure

theorem keeps_bracketed (h : inner.Lexes) : (bracketed inner).Keeps :=
  have hbound := (h.expression .inside).maybe
  (keeps_token _).andThen fun _ => h.keeps_expressionOrType.maybe.andThen fun _ =>
    (keeps_token _).maybe.andThen fun _ => .choose
      (hbound.andThen fun _ => ((keeps_token _).andThen fun _ => h.expression _).maybe.andThen
        fun _ => (keeps_token _).thenPure)
      ((keeps_guard _).andThen fun _ =>
        ((keeps_token _).andThen fun _ => h.keeps_expressionOrType).many.andThen fun _ =>
          (keeps_token _).maybe.andThen fun _ => (keeps_token _).thenPure)

theorem keeps_callArguments (h : inner.Lexes) (o : Operand) : (callArguments inner o).Keeps :=
  have hargument : (do inner.expression .inside; let _ ← maybe (sign "...")).Keeps :=
    (h.expression _).andThen fun _ => (keeps_token _).maybe.thenPure
  have hclose := (keeps_token (·.isSign ")")).thenPure
  have hfirst := Keeps.choose (hargument.orElse h.keeps_expressionOrType) hargument
  (keeps_token _).andThen fun _ => hfirst.maybe.andThen fun _ =>
    .choose (((keeps_token _).andThen fun _ => hargument).many.andThen fun _ =>
      (keeps_token _).maybe.andThen fun _ => hclose) hclose

theorem keeps_selected (h : inner.Lexes) (o : Operand) : (selected inner o).Keeps :=
  (keeps_token _).andThen fun _ => (keeps_token _).maybe.andThen fun _ => .choose (keeps_pure _)
    ((Keeps.between _ _ ((keeps_token _).maybe.andThen fun _ =>
      .choose ((h.type _).keeps.thenPure) (keeps_pure _))).thenPure)

theorem keeps_operandSuffix (h : inner.Lexes) (c : Context) (o : Operand) :
    (operandSuffix inner c o).Keeps :=
  (keeps_when _).andThen fun _ => yields_peek.keeps.andThen fun _ =>
    .choose (h.keeps_selected o) (.choose (h.keeps_bracketed.thenPure)
      (.choose ((h.keeps_callArguments o).thenPure)
        (.choose (h.keeps_literal.thenPure) yields_failure)))

/-! ## Expressions -/

theorem passes_unary (h : inner.Lexes) (c : Context) : (unary inner c).Passes :=
  (keeps_token _).many.thenPasses fun _ => h.passes_operand.andThen fun _ =>
    (Keeps.iterate (h.keeps_operandSuffix c) _).thenPure

theorem passes_expression (h : inner.Lexes) (c : Context) : (Golang.expression inner c).Passes :=
  (h.passes_unary c).andThen fun _ => Keeps.thenPure <| Keeps.many <|
    (keeps_when _).andThen fun _ => (keeps_token _).andThen fun _ => (h.passes_unary c).keeps

theorem passes_expressions (h : inner.Lexes) (c : Context) : (expressions inner c).Passes :=
  (h.passes_expression c).andThen fun _ => Keeps.thenPure <| Keeps.many <|
    (keeps_when _).andThen fun _ => (keeps_token _).andThen fun _ => (h.passes_expression c).keeps

end Level.Lexes

/-! ## Declarations -/

/-- Whether the names in the parameters and results of a function are words. -/
def FunctionDecl.Lexed (f : FunctionDecl) : Prop := ∀ p ∈ f.parameters ++ f.results, p.Lexed

/-- Whether the names in the types, parameters and results of a declaration are words. -/
def Declaration.Lexed : Declaration → Prop
  | .types specs => ∀ t ∈ specs, t.type.Lexed
  | .function f => f.Lexed
  | .method receiver f => (∀ p ∈ receiver, p.Lexed) ∧ f.Lexed
  | _ => True

theorem yields_grouped {α : Type} {p : Phrase α} {Q : α → Prop} (hp : p.Yields Q) :
    (grouped p).Yields fun items => ∀ item ∈ items, Q item.value := by
  refine yields_peek.bind fun t _ => .ite (fun _ => (hp.endedItems _).between _ _) fun _ => ?_
  exact (hp.placed _).bind fun item hitem => yields_pure (List.forall_mem_singleton.2 hitem)

namespace Level.Lexes

/-! ## Values -/

theorem keeps_variableSpec (h : inner.Lexes) : (variableSpec inner).Keeps := by
  have hvalues : (do let _ ← sign "="; let _ ← expressions inner .line).Keeps :=
    (keeps_token _).andThen fun _ => (h.passes_expressions _).keeps.thenPure
  refine (Keeps.commaSeparated (keeps_token _)).andThen fun _ => hvalues.maybe.andThen fun o => ?_
  cases o with
  | some _ => exact keeps_pure _
  | none =>
    exact (h.type _).keeps.andThen fun _ => ((keeps_when _).andThen fun _ => hvalues).maybe.thenPure

theorem keeps_constantSpec (h : inner.Lexes) : (constantSpec inner).Keeps := by
  have hmore : (do sameLine true; let comma ← sign ","; return [comma, ← word]).Keeps :=
    (keeps_when _).andThen fun _ => (keeps_token _).andThen fun _ => (keeps_token _).thenPure
  have hassigned : ∀ type : Option TypeExpr,
      (do let _ ← sign "="; let _ ← expressions inner .line; return type).Keeps := fun type =>
    (keeps_token _).andThen fun _ => (h.passes_expressions _).keeps.thenPure
  exact (keeps_token _).andThen fun _ => hmore.many.andThen fun _ =>
    Keeps.thenPure <| Keeps.maybe <| (keeps_when _).andThen fun _ =>
      (keeps_nextIs _).andThen fun _ =>
        .choose ((keeps_pure _).andThen hassigned) ((h.type _).keeps.map.andThen hassigned)

theorem takes_constantDecl (h : inner.Lexes) : (constantDecl inner).Takes Declaration.Lexed :=
  takes_token.bind fun _ _ => (yields_grouped h.keeps_constantSpec).bind fun _ _ =>
    yields_pure trivial

theorem takes_variableDecl (h : inner.Lexes) : (variableDecl inner).Takes Declaration.Lexed :=
  takes_token.bind fun _ _ => (yields_grouped h.keeps_variableSpec).bind fun _ _ =>
    yields_pure trivial

/-! ## Types -/

theorem keeps_typeParameters (h : inner.Lexes) : (typeParameters inner).Keeps :=
  (keeps_token _).andThen fun _ => (Keeps.commaSeparated <|
    (Keeps.commaSeparated (keeps_token _)).andThen fun _ => (h.yields_typeElement _).keeps).andThen
      fun _ => (keeps_token _).maybe.andThen fun _ => (keeps_token _).thenPure

theorem yields_typeSpec (h : inner.Lexes) :
    (typeSpec inner).Yields fun o => ∀ f ∈ o, ∀ doc line, (f doc line).type.Lexed := by
  refine yields_word.bind fun name _ => ?_
  have hsynonym : (do let _ ← sign "="; let _ ← inner.type true; return Option.none).Yields
      fun o : Option (String → Nat → TypeSpec) => ∀ f ∈ o, ∀ doc line, (f doc line).type.Lexed :=
    yields_token.bind fun _ _ => (h.type true).bind fun _ _ => yields_pure nofun
  have hdirect : ((fun type => some fun doc line => TypeSpec.mk name.text doc line type) <$>
      inner.type true).Yields fun o => ∀ f ∈ o, ∀ doc line, (f doc line).type.Lexed :=
    (h.type true).map fun type htype f hf doc line => by
      rw [← Option.some.inj hf]
      exact htype
  exact hsynonym.orElse (hdirect.orElse
    (h.keeps_typeParameters.bind fun _ _ => hsynonym.orElse hdirect))

theorem takes_typeDecl (h : inner.Lexes) :
    (typeDecl inner).Takes fun d => ∀ doc, (d doc).Lexed := by
  refine takes_token.bind fun _ _ => (yields_grouped h.yields_typeSpec).bind fun items hitems =>
    yields_pure fun doc t ht => ?_
  obtain ⟨o, ho, ht⟩ := List.mem_filterMap.1 ht
  obtain ⟨own, item, hitem, rfl⟩ := exists_of_mem_documented ho
  obtain ⟨f, hf, rfl⟩ := Option.map_eq_some_iff.1 ht
  exact hitems item hitem f hf _ item.first

/-! ## Packages and imports -/

theorem takes_packageClause : packageClause.Takes Declaration.Lexed :=
  takes_token.bind fun _ _ => yields_token.bind fun _ _ => yields_pure trivial

theorem keeps_importSpec : importSpec.Keeps :=
  ((keeps_token _).orElse (keeps_token _)).maybe.andThen fun _ => (keeps_token _).thenPure

theorem takes_importDecl : importDecl.Takes Declaration.Lexed :=
  takes_token.bind fun _ _ => (keeps_nextIs _).bind fun _ _ => .ite
    (fun _ => ((keeps_importSpec.separatedItems _).between _ _).bind fun _ _ => yields_pure trivial)
    fun _ => keeps_importSpec.bind fun _ _ => yields_pure trivial

/-! ## Functions -/

theorem keeps_body (h : inner.Lexes) : (body inner).Keeps :=
  ((keeps_when _).andThen fun _ => h.passes_block.keeps).maybe.thenPure

theorem takes_functionDecl (h : inner.Lexes) : (functionDecl inner).Takes Declaration.Lexed :=
  takes_token.bind fun _ _ => yields_token.bind fun _ _ => h.keeps_typeParameters.maybe.bind
    fun _ _ => h.yields_parameters.bind fun _ hps => (h.yields_results true).bind fun _ hrs =>
      h.keeps_body.bind fun _ _ => yields_pure (List.forall_mem_append.2 ⟨hps, hrs⟩)

theorem takes_methodDecl (h : inner.Lexes) : (methodDecl inner).Takes Declaration.Lexed :=
  takes_token.bind fun _ _ => h.yields_parameters.bind fun _ hreceiver =>
    yields_token.bind fun _ _ => h.keeps_typeParameters.maybe.bind fun _ _ =>
      h.yields_parameters.bind fun _ hps => (h.yields_results true).bind fun _ hrs =>
        h.keeps_body.bind fun _ _ => yields_pure ⟨hreceiver, List.forall_mem_append.2 ⟨hps, hrs⟩⟩

/-! ## Simple statements -/

theorem passes_simpleStatement (h : inner.Lexes) (c : Context) :
    (simpleStatement inner c).Passes := by
  have hassignment : (do
      sameLine c.lineEnds
      let _ ← signOf (":=" :: assignmentSigns)
      let _ ← expressions inner c).Keeps :=
    (keeps_when _).andThen fun _ => (keeps_token _).andThen fun _ =>
      (h.passes_expressions c).keeps.thenPure
  have hother : (do
      sameLine c.lineEnds
      if (← maybe (signOf ["++", "--"])).isNone then
        let _ ← sign "<-"
        Golang.expression inner c).Keeps :=
    (keeps_when _).andThen fun _ => (keeps_token _).maybe.andThen fun _ =>
      .choose ((keeps_token _).andThen fun _ => (h.passes_expression c).keeps) (keeps_pure _)
  exact (h.passes_expressions c).andThen fun _ => hassignment.maybe.andThen fun _ =>
    .choose (keeps_pure _) ((keeps_guard _).andThen fun _ => hother.maybe.thenPure)

theorem keeps_headed (h : inner.Lexes) : (headed inner).Keeps :=
  (h.passes_simpleStatement _).keeps.andThen fun _ => (keeps_token _).maybe.andThen fun _ =>
    .choose (h.passes_expression _).keeps (keeps_guard _)

/-! ## Statements with blocks -/

theorem passes_ifStatement (h : inner.Lexes) : (ifStatement inner).Passes :=
  (passes_token _).andThen fun _ => h.keeps_headed.andThen fun _ =>
    h.passes_block.keeps.andThen fun _ => Keeps.thenPure <| Keeps.maybe <|
      (keeps_when _).andThen fun _ => (keeps_token _).andThen fun _ =>
        (keeps_when _).andThen fun _ => h.statement

theorem keeps_rangeClause (h : inner.Lexes) : (rangeClause inner).Keeps :=
  ((h.passes_expressions _).keeps.andThen fun _ => keeps_token _).maybe.andThen fun _ =>
    (keeps_token _).andThen fun _ => (h.passes_expression _).keeps

theorem keeps_forClause (h : inner.Lexes) : (forClause inner).Keeps :=
  have hsimple := (h.passes_simpleStatement .head).keeps.maybe
  hsimple.andThen fun _ => (keeps_token _).andThen fun _ =>
    (h.passes_expression _).keeps.maybe.andThen fun _ => (keeps_token _).andThen fun _ =>
      hsimple.thenPure

theorem passes_forStatement (h : inner.Lexes) : (forStatement inner).Passes :=
  have hclause := h.keeps_rangeClause.orElse
    (h.keeps_forClause.orElse (h.passes_expression .head).keeps)
  (passes_token _).andThen fun _ => (keeps_nextIs _).andThen fun _ =>
    .choose (hclause.andThen fun _ => h.passes_block.keeps) h.passes_block.keeps

theorem keeps_caseBody (h : inner.Lexes) : (caseBody inner).Keeps :=
  h.statement.maybe.andThen fun _ => .choose
    ((keeps_terminator.andThen fun _ => h.statement).many.andThen fun _ =>
      keeps_terminator.maybe.thenPure)
    (keeps_pure _)

theorem keeps_cases (h : inner.Lexes) {p : Phrase Unit} (hp : p.Keeps) :
    (Golang.cases inner p).Keeps :=
  have hbody := (keeps_token (·.isSign ":")).andThen fun _ => h.keeps_caseBody
  Keeps.thenPure <| Keeps.between _ _ <| Keeps.many <| (keeps_token _).maybe.andThen fun _ =>
    .choose ((keeps_token _).andThen fun _ => hp.andThen fun _ => hbody) hbody

theorem passes_switchStatement (h : inner.Lexes) : (switchStatement inner).Passes :=
  have hsimple := (h.passes_simpleStatement .head).keeps.maybe
  (passes_token _).andThen fun _ => hsimple.andThen fun _ =>
    ((keeps_token _).andThen fun _ => hsimple).maybe.andThen fun _ =>
      h.keeps_cases h.keeps_expressionOrType.commaSeparated.thenPure

theorem passes_selectStatement (h : inner.Lexes) : (selectStatement inner).Passes :=
  (passes_token _).andThen fun _ => h.keeps_cases (h.passes_simpleStatement _).keeps.thenPure

/-! ## Statements -/

theorem passes_labeledStatement (h : inner.Lexes) : (labeledStatement inner).Passes :=
  (passes_token _).andThen fun _ => (keeps_when _).andThen fun _ => (keeps_token _).andThen fun _ =>
    h.statement.maybe.thenPure

theorem passes_keywordStatement (h : inner.Lexes) (word : String) :
    (keywordStatement inner word).Passes := by
  unfold keywordStatement
  split
  · exact h.takes_constantDecl.passes.thenPure
  · exact h.takes_variableDecl.passes.thenPure
  · exact h.takes_typeDecl.passes.thenPure
  · exact (passes_token _).andThen fun _ =>
      ((keeps_when _).andThen fun _ => (h.passes_expressions _).keeps).maybe.thenPure
  · exact (passes_token _).andThen fun _ => (h.passes_expression _).keeps
  · exact (passes_token _).andThen fun _ => (h.passes_expression _).keeps
  · exact (passes_token _).andThen fun _ =>
      ((keeps_when _).andThen fun _ => keeps_token _).maybe.thenPure
  · exact (passes_token _).andThen fun _ =>
      ((keeps_when _).andThen fun _ => keeps_token _).maybe.thenPure
  · exact (passes_token _).andThen fun _ => (keeps_token _).thenPure
  · exact (passes_token _).thenPure
  · exact h.passes_ifStatement
  · exact h.passes_forStatement
  · exact h.passes_switchStatement
  · exact h.passes_selectStatement
  · exact takes_failure

theorem passes_statement (h : inner.Lexes) : (Golang.statement inner).Passes :=
  yields_peek.keeps.thenPasses fun _ => .choose (h.passes_keywordStatement _) <|
    .choose takes_failure <| .choose h.passes_block <| .choose (passes_token _).thenPure <|
      yields_peekSecond.keeps.thenPasses fun _ =>
        .choose h.passes_labeledStatement (h.passes_simpleStatement _).thenPure

end Level.Lexes

/-! ## Types with names -/

/-- A type with a name is read behind the name and the parameters that it may have. -/
theorem typeSpec_run (h : inner.Lexes) {ts ts' : List Token} (hts : ∀ t ∈ ts, t.Lexed)
    {spec : String → Nat → TypeSpec} (hrun : typeSpec inner ts = some (some spec, ts')) :
    ∃ name before us type, ts = name :: (before ++ us) ∧ inner.type true us = some (type, ts') ∧
      spec = fun doc line => ⟨name.text, doc, line, type⟩ := by
  obtain ⟨name, us, hname, hrest⟩ := bind_run hrun
  obtain ⟨rfl, -⟩ := token_run hname
  have hsynonym : (do let _ ← sign "="; let _ ← inner.type true; return Option.none).Gives
      fun o : Option (String → Nat → TypeSpec) => o = none :=
    gives_bind fun _ => gives_bind fun _ => gives_pure rfl
  have hdirect : ∀ {us ts'}, ((fun type => some fun doc line => TypeSpec.mk name.text doc line type)
      <$> inner.type true) us = some (some spec, ts') → ∃ type,
        inner.type true us = some (type, ts') ∧
          spec = fun doc line => ⟨name.text, doc, line, type⟩ := by
    intro us ts' heq
    obtain ⟨type, htype, hspec⟩ := map_run heq
    exact ⟨type, htype, (Option.some.inj hspec).symm⟩
  rcases orElse_run hrest with hrest | ⟨-, hrest⟩
  · exact absurd (hsynonym.run hrest) nofun
  rcases orElse_run hrest with hrest | ⟨-, hrest⟩
  · obtain ⟨type, htype, hspec⟩ := hdirect hrest
    exact ⟨name, [], us, type, rfl, htype, hspec⟩
  · obtain ⟨_, vs, hparameters, hafter⟩ := bind_run hrest
    obtain ⟨before, rfl⟩ := (h.keeps_typeParameters.run (fun t ht => hts t (by simp [ht]))
      hparameters).1
    rcases orElse_run hafter with hafter | ⟨-, hafter⟩
    · exact absurd (hsynonym.run hafter) nofun
    · obtain ⟨type, htype, hspec⟩ := hdirect hafter
      exact ⟨name, before, vs, type, rfl, htype, hspec⟩

theorem typeDecl_run {ts ts' : List Token} {d : String → Declaration}
    (hrun : typeDecl inner ts = some (d, ts')) : ∃ keyword r items, ts = keyword :: r ∧
      grouped (typeSpec inner) r = some (items, ts') ∧ d = fun doc => .types <|
        (documented (fun own (p : Placed (Option (String → Nat → TypeSpec))) =>
          p.value.map fun f => f (if own = "" then doc else own) p.first) items).filterMap id := by
  obtain ⟨keyword, r, hkeyword, hrest⟩ := bind_run hrun
  obtain ⟨items, vs, hitems, hpure⟩ := bind_run hrest
  obtain ⟨rfl, rfl⟩ := pure_run hpure
  exact ⟨keyword, r, items, (token_run hkeyword).1, hitems, rfl⟩

/-! ## The grammar at a depth -/

theorem lexes_level (n : Nat) : (level n).Lexes := by
  induction n with
  | zero => exact lexes_none
  | succ n ih =>
    exact ⟨fun lineEnds => (ih.takes_typeExpr lineEnds).toYields,
      fun c => (ih.passes_expression c).keeps, ih.keeps_literal, ih.passes_statement.keeps⟩

end Atlas.Golang
