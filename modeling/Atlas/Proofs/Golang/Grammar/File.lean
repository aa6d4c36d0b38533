import Atlas.Golang.Grammar.File
import Atlas.Proofs.Golang.Grammar.Statement
import Mathlib.Data.List.TakeWhile

/-!
# Files that are read

The words among the tokens of a source are words (`lexed_of_tokens?`). So the names in the types,
parameters and results of a file's declarations are (`lexed_of_declarations?`).
-/

set_option linter.unusedSectionVars false

namespace Atlas.Golang

open Phrase

/-! ## Tokens -/

theorem text_map_some (cs : List Char) : Source.text (cs.map some) = String.ofList cs := by
  have h : (cs.map some).mapM id = some cs := by
    induction cs with
    | nil => rfl
    | cons c cs ih => simp [ih]
  rw [Source.text, h]

/-- Pieces that satisfy a property of characters are characters. -/
theorem exists_map_some {p : Char → Bool} {s : Source} (h : ∀ c ∈ s, pieceIs p c) :
    ∃ cs : List Char, s = cs.map some ∧ ∀ c ∈ cs, p c := by
  induction s with
  | nil => exact ⟨[], rfl, nofun⟩
  | cons c s ih =>
    obtain ⟨hc, hs⟩ := List.forall_mem_cons.1 h
    obtain ⟨cs, rfl, hcs⟩ := ih hs
    cases c with
    | none => exact absurd hc nofun
    | some c => exact ⟨c :: cs, rfl, List.forall_mem_cons.2 ⟨hc, hcs⟩⟩

theorem isIdentifierContinue_of_start {c : Char} (h : c == '_' || Chars.isIdentifierStart c) :
    Chars.isIdentifierContinue c := by
  rcases Bool.or_eq_true_iff.1 h with h | h
  · rw [beq_iff_eq.1 h]
    decide
  · by_cases hascii : c.toNat < 128
    · rw [Chars.isIdentifierStart, if_pos hascii] at h
      simp [Chars.isIdentifierContinue, hascii, Chars.isAsciiAlphanumeric, h]
    · simp [Chars.isIdentifierContinue, hascii, h]

/-- Whether a character may go on a word. -/
def goesOn (c : Char) : Bool := c == '_' || Chars.isIdentifierContinue c

theorem exists_of_lexeme?_word {s : Source} {k : Nat} (h : lexeme? s = some (.word, k)) :
    ∃ c r, s = some c :: r ∧ (c == '_' || Chars.isIdentifierStart c) ∧
      k = 1 + (r.takeWhile (pieceIs goesOn)).length := by
  unfold lexeme? at h
  extract_lets sign at h
  have hsign : sign ≠ some (.word, k) := by
    simp only [sign]
    split
    · simp
    · split <;> simp
    · simp
  split at h
  case h_4 c r _ _ _ =>
    split at h
    case isTrue hc => exact ⟨c, r, rfl, hc, (Prod.mk.inj (Option.some.inj h)).2.symm⟩
    split at h
    · simp at h
    · exact absurd h hsign
  all_goals simp at h

theorem isWord_of_lexeme? {s : Source} {k : Nat} (h : lexeme? s = some (.word, k)) :
    IsWord (Source.text (s.take k)) := by
  obtain ⟨c, r, rfl, hc, rfl⟩ := exists_of_lexeme?_word h
  have htake : (some c :: r).take (1 + (r.takeWhile (pieceIs goesOn)).length) =
      some c :: r.takeWhile (pieceIs goesOn) := by
    rw [Nat.add_comm, List.take_succ_cons, ← List.prefix_iff_eq_take.1 (List.takeWhile_prefix _)]
  obtain ⟨cs, hcs, hgo⟩ := exists_map_some (p := goesOn) (s := r.takeWhile (pieceIs goesOn))
    fun o ho => List.mem_takeWhile_imp ho
  rw [htake, hcs, ← List.map_cons, text_map_some]
  refine ⟨by simp, ?_⟩
  rw [String.toList_ofList]
  refine List.forall_mem_cons.2 ⟨isIdentifierContinue_of_start hc, fun d hd => ?_⟩
  rcases Bool.or_eq_true_iff.1 (hgo d hd) with h | h
  · rw [beq_iff_eq.1 h]
    decide
  · exact h

theorem lexed_of_tokensFrom? : ∀ {n previous : Nat} {gap : Gap} {line : Nat} {s : Source}
    {ts : List Token}, tokensFrom? n previous gap line s = some ts → ∀ t ∈ ts, t.Lexed
  | 0, _, _, _, [], _, h | _ + 1, _, _, _, [], _, h => by
    rw [← Option.some.inj h]
    exact List.forall_mem_singleton.2 nofun
  | 0, _, _, _, _ :: _, _, h => absurd h nofun
  | n + 1, _, _, _, c :: r, ts, h => by
    rw [tokensFrom?] at h
    split at h
    · exact lexed_of_tokensFrom? h
    split at h
    · exact absurd h nofun
    · exact lexed_of_tokensFrom? h
    · obtain ⟨⟨kind, k⟩, hlexeme, h⟩ := Option.bind_eq_some_iff.1 h
      obtain ⟨us, hus, h⟩ := Option.bind_eq_some_iff.1 h
      rw [← Option.some.inj h]
      refine List.forall_mem_cons.2 ⟨fun hkind => ?_, lexed_of_tokensFrom? hus⟩
      obtain rfl : kind = .word := hkind
      exact isWord_of_lexeme? hlexeme

theorem lexed_of_tokens? {s : Source} {ts : List Token} (h : tokens? s = some ts) :
    ∀ t ∈ ts, t.Lexed :=
  lexed_of_tokensFrom? h

/-! ## Files -/

variable {inner : Level}

theorem takes_declaration (h : inner.Lexes) :
    (declaration inner).Takes fun d => ∀ doc, (d doc).Lexed := by
  have hconstant : ∀ {p : Phrase Declaration}, p.Takes Declaration.Lexed →
      (do let d ← p; return fun _ : String => d).Takes fun d => ∀ doc, (d doc).Lexed :=
    fun hp => hp.bind fun d hd => yields_pure fun _ => hd
  have hstatement : (do statement inner; return Declaration.statement).Takes Declaration.Lexed :=
    h.passes_statement.bind fun _ _ => yields_pure trivial
  exact yields_peek.bindTakes fun _ _ =>
    .ite (fun _ => hconstant Level.Lexes.takes_packageClause) fun _ =>
    .ite (fun _ => hconstant Level.Lexes.takes_importDecl) fun _ =>
    .ite (fun _ => hconstant h.takes_constantDecl) fun _ =>
    .ite (fun _ => hconstant h.takes_variableDecl) fun _ =>
    .ite (fun _ => h.takes_typeDecl) fun _ =>
    .ite (fun _ => hconstant (h.takes_functionDecl.orElse (h.takes_methodDecl.orElse hstatement)))
      fun _ => hconstant hstatement

/-- Whether a declaration is one of types. -/
def Declaration.isTypes : Declaration → Bool
  | .types _ => true
  | _ => false

/-- Types are declared by declarations of types alone. -/
theorem declaration_run {ts ts' : List Token} {d : String → Declaration}
    (hrun : declaration inner ts = some (d, ts')) {doc : String} (hd : (d doc).isTypes) :
    typeDecl inner ts = some (d, ts') := by
  have hother : ∀ {p : Phrase Declaration}, p.Gives (·.isTypes = false) →
      (do let d ← p; return fun _ : String => d : Phrase (String → Declaration)) ts ≠
        some (d, ts') := fun hp heq => by
    obtain ⟨e, us, he, hpure⟩ := bind_run heq
    obtain ⟨rfl, -⟩ := pure_run hpure
    exact Bool.false_ne_true ((hp.run he).symm.trans hd)
  have hstatement : (do statement inner; return Declaration.statement).Gives (·.isTypes = false) :=
    gives_bind fun _ => gives_pure rfl
  have hfunction : (functionDecl inner).Gives (·.isTypes = false) :=
    gives_bind fun _ => gives_bind fun _ => gives_bind fun _ => gives_bind fun _ =>
      gives_bind fun _ => gives_bind fun _ => gives_pure rfl
  have hmethod : (methodDecl inner).Gives (·.isTypes = false) :=
    gives_bind fun _ => gives_bind fun _ => gives_bind fun _ => gives_bind fun _ =>
      gives_bind fun _ => gives_bind fun _ => gives_bind fun _ => gives_pure rfl
  obtain ⟨t, us, ht, hrest⟩ := bind_run hrun
  obtain ⟨rfl, r, rfl⟩ := peek_run ht
  split at hrest
  · exact absurd hrest (hother (gives_bind fun _ => gives_bind fun _ => gives_pure rfl))
  split at hrest
  · refine absurd hrest (hother (gives_bind fun _ => gives_bind fun _ => .ite ?_ ?_)) <;>
      exact gives_bind fun _ => gives_pure rfl
  split at hrest
  · exact absurd hrest (hother (gives_bind fun _ => gives_bind fun _ => gives_pure rfl))
  split at hrest
  · exact absurd hrest (hother (gives_bind fun _ => gives_bind fun _ => gives_pure rfl))
  split at hrest
  · exact hrest
  split at hrest
  · exact absurd hrest (hother (hfunction.orElse (hmethod.orElse hstatement)))
  · exact absurd hrest (hother hstatement)

theorem yields_file (h : inner.Lexes) :
    (file inner).Yields fun ds => ∀ d ∈ ds, d.declaration.Lexed := by
  refine ((takes_declaration h).toYields.endedItems []).bind fun items hitems => (keeps_when _).bind
    fun _ _ => yields_pure fun d hd => ?_
  obtain ⟨doc, item, hitem, rfl⟩ := exists_of_mem_documented hd
  exact hitems item hitem doc

/-- The names in the types, parameters and results of a file's declarations are words. -/
theorem lexed_of_declarations? {s : Source} {ds : List Documented}
    (h : declarations? s = some ds) : ∀ d ∈ ds, d.declaration.Lexed := by
  obtain ⟨ts, hts, h⟩ := Option.bind_eq_some_iff.1 h
  obtain ⟨⟨ds', rest⟩, hfile, h⟩ := Option.bind_eq_some_iff.1 h
  rw [← Option.some.inj h]
  exact ((yields_file (lexes_level _)).run (lexed_of_tokens? hts) hfile).2

end Atlas.Golang
