import Atlas.Proofs.Golang.Grammar.File
import Atlas.Proofs.Golang.Receivers

/-!
# Comments above declarations

Tokens stand one behind another, each with its comments before it (`consecutive_of_tokens?`). An
item of a list, such as a declaration, a type, a field or a method, stands at a site among them
(`Site`), and what documents it are the comments that reach up from its line, as far as the code
before it (`Site.noted`). Of these the ones that belong to the item start on lines without code
before them (`Site.leading`). Both are the same just if no comment that documents the item starts on
a line with code before it (`Site.noted_eq_leading_iff`), as is so for an item behind another one
with at most one comment between them on the line of that one (`Site.noted_eq_leading`). In every
file that is read all items are documented at their sites (`SourceFile.documented_at_sites`).

A comment behind the brace that opens a struct documents the field on the next line
(`field_documented_by_brace`).
-/

set_option linter.unusedSectionVars false

namespace Atlas.Golang

open Phrase

/-! ## Comments that reach a line -/

/-- The comments that reach up from a line without a line between them, the nearest one first, as
far as all satisfy `q`. -/
def reaching (q : Comment → Prop) [DecidablePred q] : ℕ → List Comment → List Comment
  | _, [] => []
  | line, c :: cs => if c.last + 1 = line ∧ q c then c :: reaching q c.first cs else []

section Reaching

variable {q : Comment → Prop} [DecidablePred q]

theorem reaching_eq_takeWhile (line : ℕ) (cs : List Comment) :
    reaching q line cs = (reaching (fun _ => True) line cs).takeWhile (q ·) := by
  induction cs generalizing line with
  | nil => rfl
  | cons c cs ih =>
    by_cases hline : c.last + 1 = line
    · by_cases hc : q c <;> simp [reaching, hline, hc, ih]
    · simp [reaching, hline]

theorem reaching_congr {q' : Comment → Prop} [DecidablePred q'] {line : ℕ} {cs : List Comment}
    (h : ∀ c ∈ cs, q c ↔ q' c) : reaching q line cs = reaching q' line cs := by
  induction cs generalizing line with
  | nil => rfl
  | cons c cs ih =>
    obtain ⟨hc, hcs⟩ := List.forall_mem_cons.1 h
    rw [reaching, reaching, ih hcs]
    simp only [hc]

/-- What does not satisfy the property is not reached. -/
theorem reaching_append_of_not {line : ℕ} {cs ds : List Comment} (h : ∀ d ∈ ds, ¬q d) :
    reaching q line (cs ++ ds) = reaching q line cs := by
  induction cs generalizing line with
  | nil =>
    cases ds with
    | nil => rfl
    | cons d ds => exact if_neg fun hd => h d List.mem_cons_self hd.2
  | cons c cs ih => rw [List.cons_append, reaching, reaching, ih]

theorem mem_of_mem_reaching {line : ℕ} {cs : List Comment} {c : Comment}
    (h : c ∈ reaching q line cs) : c ∈ cs := by
  induction cs generalizing line with
  | nil => exact h
  | cons d cs ih =>
    rw [reaching] at h
    split at h
    · exact (List.mem_cons.1 h).elim (fun hd => hd ▸ List.mem_cons_self) fun h =>
        List.mem_cons_of_mem _ (ih h)
    · cases h

end Reaching

/-- What is found above a line are the comments that reach it, without the farthest one of all if it
starts on the line on which the item before ends. -/
theorem bodiesAbove_append (previous : Option ℕ) (line : ℕ) (cs : List Comment) (c : Comment) :
    bodiesAbove previous line (cs ++ [c]) =
      (reaching (fun _ => True) line
        (if previous = some c.first then cs else cs ++ [c])).map (·.body) := by
  induction cs generalizing line with
  | nil =>
    by_cases hline : c.last + 1 = line <;> by_cases hc : previous = some c.first <;>
      simp [bodiesAbove, reaching, hline, hc]
  | cons d cs ih =>
    have hcons : bodiesAbove previous line (d :: (cs ++ [c])) =
        if d.last + 1 = line then d.body :: bodiesAbove previous d.first (cs ++ [c]) else [] := by
      by_cases hline : d.last + 1 = line <;> simp [bodiesAbove, hline]
    rw [List.cons_append, hcons, ih]
    by_cases hline : d.last + 1 = line <;> by_cases hc : previous = some c.first <;>
      simp [reaching, hline, hc]

/-! ## Tokens one behind another -/

/-- Whether a token stands behind what ends on a line, with its comments between. -/
structure Token.Behind (line : ℕ) (t : Token) : Prop where
  previous : t.previous = line
  comments : ∀ c ∈ t.comments, line ≤ c.first ∧ c.first ≤ t.first
  first : line ≤ t.first
  last : t.first ≤ t.last

/-- Whether tokens stand one behind another from a line on. -/
inductive Consecutive : ℕ → List Token → Prop
  | nil {line : ℕ} : Consecutive line []
  | cons {line : ℕ} {t : Token} {ts : List Token} : t.Behind line → Consecutive t.last ts →
      Consecutive line (t :: ts)

/-- The line on which tokens end. -/
def lineAfter : ℕ → List Token → ℕ
  | line, [] => line
  | _, t :: ts => lineAfter t.last ts

theorem exists_last_eq_lineAfter (line : ℕ) {ts : List Token} (h : ts ≠ []) :
    ∃ t ∈ ts, t.last = lineAfter line ts := by
  induction ts generalizing line with
  | nil => exact absurd rfl h
  | cons t ts ih =>
    by_cases hts : ts = []
    · subst hts
      exact ⟨t, List.mem_cons_self, rfl⟩
    · obtain ⟨u, hu, hlast⟩ := ih t.last hts
      exact ⟨u, List.mem_cons_of_mem _ hu, hlast⟩

namespace Consecutive

variable {line : ℕ} {ts us : List Token}

theorem le_lineAfter (h : Consecutive line ts) : line ≤ lineAfter line ts := by
  induction h with
  | nil => exact Nat.le_refl _
  | cons ht _ ih => exact Nat.le_trans (Nat.le_trans ht.first ht.last) ih

theorem right (h : Consecutive line (ts ++ us)) : Consecutive (lineAfter line ts) us := by
  induction ts generalizing line with
  | nil => exact h
  | cons t ts ih =>
    cases h with
    | cons _ h => exact ih h

theorem left (h : Consecutive line (ts ++ us)) : Consecutive line ts := by
  induction ts generalizing line with
  | nil => exact nil
  | cons t ts ih =>
    cases h with
    | cons ht h => exact cons ht (ih h)

theorem lines_le (h : Consecutive line ts) :
    ∀ t ∈ ts, t.first ≤ t.last ∧ t.last ≤ lineAfter line ts := by
  induction h with
  | nil => exact List.forall_mem_nil _
  | cons ht h ih => exact List.forall_mem_cons.2 ⟨⟨ht.last, h.le_lineAfter⟩, ih⟩

/-- A token stands behind those before it. -/
theorem behind {t : Token} (h : Consecutive line (ts ++ t :: us)) :
    t.Behind (lineAfter line ts) := by
  cases h.right with
  | cons ht _ => exact ht

end Consecutive

theorem consecutive_of_tokensFrom? {n previous : ℕ} {gap : Gap} {line : ℕ} {s : Source}
    {ts : List Token} (hgap : ∀ c ∈ gap.comments, previous ≤ c.first ∧ c.first ≤ line)
    (hline : previous ≤ line) (h : tokensFrom? n previous gap line s = some ts) :
    Consecutive previous ts := by
  fun_induction tokensFrom? n previous gap line s generalizing ts with
  | case1 n previous gap line =>
    rw [← Option.some.inj h]
    exact .cons ⟨rfl, hgap, hline, Nat.le_refl _⟩ .nil
  | case2 => cases h
  | case3 n previous gap line c r _ ih =>
    refine ih (fun d hd => ?_) (by omega) h
    obtain ⟨hfirst, hlast⟩ := hgap d hd
    exact ⟨hfirst, by omega⟩
  | case4 => cases h
  | case5 n previous gap line c r _ k _ spelled =>
    rename_i ih
    refine ih (fun d hd => ?_) (by omega) h
    rcases List.mem_append.1 hd with hd | hd
    · obtain ⟨hfirst, hlast⟩ := hgap d hd
      exact ⟨hfirst, by omega⟩
    · rw [List.mem_singleton.1 hd]
      exact ⟨hline, Nat.le_add_right _ _⟩
  | case6 n previous gap line c r _ _ ih =>
    obtain ⟨⟨kind, k⟩, -, h⟩ := Option.bind_eq_some_iff.1 h
    obtain ⟨us, hus, h⟩ := Option.bind_eq_some_iff.1 h
    rw [← Option.some.inj h]
    exact .cons ⟨rfl, hgap, hline, Nat.le_add_right _ _⟩
      (ih k (List.forall_mem_nil _) (Nat.le_refl _) hus)

theorem consecutive_of_tokens? {s : Source} {ts : List Token} (h : tokens? s = some ts) :
    Consecutive 1 ts :=
  consecutive_of_tokensFrom? (List.forall_mem_nil _) (Nat.le_refl _) h

/-! ## Sites -/

/-- Where an item of a list stands among the tokens of a source. -/
structure Site where
  /-- The code before the item, as far as an item of the same list or what opens the list. -/
  code : List Token
  /-- Whether an item of the same list stands before it. -/
  follows : Bool
  /-- A semicolon or a bracket behind that code, before which comments count as well. -/
  between : Option Token
  first : Token
  rest : List Token

/-- Whether a token stands on a line, at least in part. -/
def Token.IsOn (line : ℕ) (t : Token) : Prop := t.first ≤ line ∧ line ≤ t.last

instance (line : ℕ) (t : Token) : Decidable (t.IsOn line) :=
  inferInstanceAs (Decidable (_ ∧ _))

/-- What the comments say that stand one above another, the last one first. -/
def docText (cs : List Comment) : String :=
  Text.trim ("\n".intercalate (cs.reverse.map (·.body)))

namespace Site

/-- All code before the item. -/
def codeBefore (s : Site) : List Token := s.code ++ s.between.toList

/-- The tokens of the source. -/
def tokens (s : Site) : List Token := s.codeBefore ++ s.first :: s.rest

/-- The comments behind the code before the item. -/
def above (s : Site) : List Comment :=
  s.between.toList.flatMap (·.comments) ++ s.first.comments

/-- The comments that count for the item. The first of them does not if it starts on the line on
which an item before ends. -/
def candidates (s : Site) : List Comment :=
  match s.above with
  | [] => []
  | c :: cs => if s.follows ∧ lineAfter 1 s.code = c.first then cs else c :: cs

/-- The comments that document the item. -/
def noted (s : Site) : List Comment :=
  reaching (fun _ => True) s.first.first s.candidates.reverse

/-- The comments directly above the item that start on lines without code before them. -/
def leading (s : Site) : List Comment :=
  reaching (fun c => ∀ t ∈ s.codeBefore, ¬t.IsOn c.first) s.first.first s.first.comments.reverse

/-- The documentation of the item. -/
def doc (s : Site) : String := docText s.noted

/-- Whether a comment starts below all code before the item. -/
def StartsBelow (s : Site) (c : Comment) : Prop := ∀ t ∈ s.codeBefore, t.last < c.first

instance (s : Site) (c : Comment) : Decidable (s.StartsBelow c) :=
  inferInstanceAs (Decidable (∀ t ∈ s.codeBefore, t.last < c.first))

variable {s : Site}

/-- Comments before the semicolon or bracket start on lines with code before the item. -/
theorem not_startsBelow_between (h : Consecutive 1 s.tokens) :
    ∀ c ∈ s.between.toList.flatMap (·.comments), ¬s.StartsBelow c := by
  intro c hc hbelow
  obtain ⟨t, ht, hc⟩ := List.mem_flatMap.1 hc
  have hbetween : s.codeBefore = s.code ++ [t] := by
    rw [codeBefore, Option.mem_toList.1 ht, Option.toList_some]
  have hbehind : t.Behind (lineAfter 1 s.code) := (hbetween ▸ h.left).behind
  have hlast := hbelow t (by simp [hbetween])
  have hfirst := (hbehind.comments c hc).2
  have := hbehind.last
  omega

/-- The comment that does not count starts on a line with code before the item. -/
theorem exists_above_eq (hcode : s.follows → s.code ≠ []) :
    ∃ cs, s.above = cs ++ s.candidates ∧ ∀ c ∈ cs, ¬s.StartsBelow c := by
  unfold candidates
  split
  case h_1 habove => exact ⟨[], habove, nofun⟩
  case h_2 c cs habove =>
    split
    case isFalse => exact ⟨[], habove, nofun⟩
    case isTrue hc =>
      refine ⟨[c], habove, List.forall_mem_singleton.2 fun hbelow => ?_⟩
      obtain ⟨t, ht, hlast⟩ := exists_last_eq_lineAfter 1 (hcode hc.1)
      have := hbelow t (List.mem_append_left _ ht)
      omega

/-- The comments directly above an item that start on lines without code before them are those that
document it, up to one that starts on a line with code before it. -/
theorem leading_eq (h : Consecutive 1 s.tokens) (hcode : s.follows → s.code ≠ []) :
    s.leading = s.noted.takeWhile (s.StartsBelow ·) := by
  obtain ⟨cs, habove, hcs⟩ := exists_above_eq hcode
  have hbelow : ∀ c ∈ s.first.comments.reverse,
      (∀ t ∈ s.codeBefore, ¬t.IsOn c.first) ↔ s.StartsBelow c := by
    intro c hc
    have hc := (h.behind.comments c (List.mem_reverse.1 hc)).1
    refine forall₂_congr fun t ht => ?_
    have := h.left.lines_le t ht
    simp only [Token.IsOn]
    omega
  have hreverse : s.first.comments.reverse ++
      (s.between.toList.flatMap (·.comments)).reverse = s.candidates.reverse ++ cs.reverse := by
    rw [← List.reverse_append, ← List.reverse_append, ← habove, above]
  calc s.leading
    _ = reaching s.StartsBelow s.first.first
          (s.first.comments.reverse ++ (s.between.toList.flatMap (·.comments)).reverse) := by
      rw [reaching_append_of_not, leading, reaching_congr hbelow]
      simpa using not_startsBelow_between h
    _ = reaching s.StartsBelow s.first.first s.candidates.reverse := by
      rw [hreverse, reaching_append_of_not]
      simpa using hcs
    _ = _ := reaching_eq_takeWhile _ _

/-- An item is documented by the comments directly above it that start on lines without code before
them just if no comment that documents it starts on a line with code before it. -/
theorem noted_eq_leading_iff (h : Consecutive 1 s.tokens) (hcode : s.follows → s.code ≠ []) :
    s.noted = s.leading ↔ ∀ c ∈ s.noted, s.StartsBelow c := by
  rw [leading_eq h hcode, eq_comm, List.takeWhile_eq_self_iff]
  simp only [decide_eq_true_eq]

/-- A single comment on the line on which the item before ends belongs to that one. -/
theorem noted_eq_leading (h : Consecutive 1 s.tokens) (hcode : s.follows → s.code ≠ [])
    (hfollows : s.follows) (hbetween : s.between = none)
    (htail : ∀ c ∈ s.first.comments.tail, s.StartsBelow c) : s.noted = s.leading := by
  have hcodeBefore : s.codeBefore = s.code := by simp [codeBefore, hbetween]
  refine (noted_eq_leading_iff h hcode).2 fun c hc => ?_
  have hc : c ∈ s.candidates := List.mem_reverse.1 (mem_of_mem_reaching hc)
  have habove : s.above = s.first.comments := by simp [above, hbetween]
  rw [candidates, habove] at hc
  cases hcs : s.first.comments with
  | nil => simp [hcs] at hc
  | cons d ds =>
    rw [hcs] at hc htail
    by_cases hd : lineAfter 1 s.code = d.first
    · exact htail c (by simpa [hfollows, hd] using hc)
    · rcases List.mem_cons.1 (show c ∈ d :: ds by simpa [hd] using hc) with rfl | hc
      · intro t ht
        have hlast := (h.left.lines_le t ht).2
        have hfirst := (h.behind.comments c (by simp [hcs])).1
        rw [hcodeBefore] at hlast hfirst
        omega
      · exact htail c hc

end Site

/-! ## Lists of items -/

variable {α β : Type} {p : Phrase α}

/-- The item at a site, which takes these tokens. -/
def Site.placed (s : Site) (item : List Token) (a : α) : Placed α :=
  ⟨s.above, s.first.first, lineAfter 1 (s.codeBefore ++ item), a⟩

/-- Items that a phrase reads one behind another, each with its site. Between two of them stands a
semicolon, or no token at all. -/
inductive Listed (p : Phrase α) :
    List Token → Bool → Option Token → List Token → List (Site × Placed α) → Prop
  | nil {code : List Token} {follows : Bool} {between : Option Token} {ts : List Token} :
      Listed p code follows between ts []
  | cons {s : Site} {item left : List Token} {semicolon : Option Token} {a : α}
      {xs : List (Site × Placed α)} :
      p (s.first :: s.rest) = some (a, semicolon.toList ++ left) →
      s.first :: s.rest = item ++ (semicolon.toList ++ left) →
      (∀ t ∈ semicolon, t.isSemicolon) →
      Listed p (s.codeBefore ++ item) true semicolon left xs →
      Listed p s.code s.follows s.between (s.first :: s.rest) ((s, s.placed item a) :: xs)

theorem Site.doc_placed (s : Site) (item : List Token) (a : α) :
    (s.placed item a).doc (if s.follows then some (lineAfter 1 s.code) else none) = s.doc := by
  have hbodies : bodiesAbove (if s.follows then some (lineAfter 1 s.code) else none) s.first.first
      s.above.reverse = s.noted.map (·.body) := by
    unfold noted candidates
    cases s.above with
    | nil => rfl
    | cons c cs =>
      rw [List.reverse_cons, bodiesAbove_append]
      cases s.follows <;> by_cases hc : lineAfter 1 s.code = c.first <;> simp [hc]
  rw [doc, docText, Placed.doc, List.map_reverse, ← hbodies]
  rfl

theorem comments_some (t : Token) : (some t).toList.flatMap (·.comments) = t.comments :=
  List.flatMap_singleton _ _

namespace Listed

variable {code ts us : List Token} {follows : Bool} {between : Option Token}
  {xs : List (Site × Placed α)}

theorem tokens_eq (h : Listed p code follows between ts xs) :
    ∀ x ∈ xs, x.1.tokens = code ++ between.toList ++ ts := by
  induction h with
  | nil => exact List.forall_mem_nil _
  | cons _ hitem _ _ ih =>
    refine List.forall_mem_cons.2 ⟨rfl, fun x hx => ?_⟩
    rw [ih x hx, hitem, Site.codeBefore]
    simp only [List.append_assoc]

theorem run (h : Listed p code follows between ts xs) :
    ∀ x ∈ xs, ∃ left, p (x.1.first :: x.1.rest) = some (x.2.value, left) := by
  induction h with
  | nil => exact List.forall_mem_nil _
  | cons hrun _ _ _ ih => exact List.forall_mem_cons.2 ⟨⟨_, hrun⟩, ih⟩

/-- An item that follows another has code before it. -/
theorem code_ne_nil (h : Listed p code follows between ts xs) (hp : code ≠ [] ∨ p.Passes)
    (hts : ∀ t ∈ ts, t.Lexed) (hcode : follows → code ≠ []) :
    ∀ x ∈ xs, x.1.follows → x.1.code ≠ [] := by
  induction h with
  | nil => exact List.forall_mem_nil _
  | @cons s item left semicolon a xs hrun hitem _ _ ih =>
    have hnext : s.codeBefore ++ item ≠ [] := by
      rcases hp with hp | hp
      · simp [Site.codeBefore, hp]
      · have hlength := hp.shorter hts hrun
        simp only [hitem, List.length_append] at hlength
        have hne : item ≠ [] := List.ne_nil_of_length_pos (by omega)
        simp [hne]
    have hleft : ∀ t ∈ left, t.Lexed := fun t ht => hts t (by simp [hitem, ht])
    exact List.forall_mem_cons.2 ⟨hcode, ih (.inl hnext) hleft fun _ => hnext⟩

/-- What documents the items are the comments above their sites. -/
theorem documentedAfter_eq (f : String → Placed α → β) (h : Listed p code follows between ts xs) :
    documentedAfter f (if follows then some (lineAfter 1 code) else none) (xs.map (·.2)) =
      xs.map fun x => f x.1.doc x.2 := by
  induction h with
  | nil => rfl
  | @cons s item _ _ a _ _ _ _ _ ih =>
    rw [List.map_cons, List.map_cons, documentedAfter, Site.doc_placed]
    exact congrArg _ ih

theorem documented_eq (f : String → Placed α → β) (h : Listed p code false between ts xs) :
    documented f (xs.map (·.2)) = xs.map fun x => f x.1.doc x.2 :=
  h.documentedAfter_eq f

/-- An item that is read stands at a site, before the items that are read behind it. -/
theorem exists_cons (hp : p.Keeps) (hts : ∀ t ∈ ts, t.Lexed)
    (hord : Consecutive 1 (code ++ between.toList ++ ts)) {x : Placed α} (follows : Bool)
    (h : placed (between.toList.flatMap (·.comments)) p ts = some (x, us)) :
    ∃ s item, Consecutive 1 (code ++ between.toList ++ item ++ us) ∧
      ∀ {semicolon : Option Token} {left xs}, us = semicolon.toList ++ left →
        (∀ t ∈ semicolon, t.isSemicolon) →
        Listed p (code ++ between.toList ++ item) true semicolon left xs →
        Listed p code follows between ts ((s, x) :: xs) := by
  obtain ⟨t, r, u, vs, a, rfl, rfl, hrun, rfl⟩ := placed_run h
  obtain ⟨item, hitem⟩ := (hp.run hts hrun).1
  rw [← hitem, ← List.append_assoc] at hord
  let s : Site := ⟨code, follows, between, t, r⟩
  refine ⟨s, item, hord, fun {semicolon left xs} hleft hsemicolon hxs => ?_⟩
  rw [hord.behind.previous]
  rw [hleft] at hrun hitem
  exact @cons α p s item left semicolon a xs hrun hitem.symm hsemicolon hxs

/-- Items that are read in steps, each with what ends it, are listed. -/
theorem of_endedSteps (hp : p.Keeps) : ∀ {n : ℕ} {acc items : List (Placed α)}
    {before before' : List Comment} {code ts us : List Token} {follows : Bool}
    {between : Option Token}, (∀ t ∈ ts, t.Lexed) → Consecutive 1 (code ++ between.toList ++ ts) →
    before = between.toList.flatMap (·.comments) →
    steps (fun (items, before) => do
      let item ← placed before p
      return (item :: items, ← terminator)) n (acc, before) ts = some ((items, before'), us) →
    ∃ xs, Listed p code follows between ts xs ∧ items = (xs.map (·.2)).reverse ++ acc
  | 0, _, _, _, _, _, _, _, _, _, _, _, _, h => by
    obtain ⟨heq, -⟩ := pure_run h
    exact ⟨[], nil, (Prod.mk.inj heq).1.symm⟩
  | n + 1, acc, items, before, before', code, ts, us, follows, between, hts, hord, hbefore, h => by
    obtain ⟨o, vs, ho, hrest⟩ := bind_run h
    obtain ⟨state, rfl, hstep⟩ | ⟨rfl, rfl⟩ := maybe_run ho
    · obtain ⟨x, ws, hx, hend⟩ := bind_run hstep
      obtain ⟨cs, vs', hcs, hpure⟩ := bind_run hend
      obtain ⟨rfl, rfl⟩ := pure_run hpure
      obtain ⟨semicolon, hsemicolon, rfl, rfl⟩ := terminator_run hcs
      obtain ⟨s, item, hord', hcons⟩ := exists_cons hp hts hord follows (hbefore ▸ hx)
      have hvs : ∀ t ∈ vs', t.Lexed := fun t ht =>
        hts t (((hp.placed _).run hts hx).1.subset (List.mem_append_right _ ht))
      rw [← List.append_assoc] at hord'
      obtain ⟨xs, hxs, rfl⟩ := of_endedSteps hp hvs hord' rfl hrest
      exact ⟨(s, x) :: xs, hcons rfl hsemicolon hxs, by simp⟩
    · obtain ⟨heq, -⟩ := pure_run hrest
      exact ⟨[], nil, (Prod.mk.inj heq).1.symm⟩

theorem of_endedItems (code : List Token) (between : Option Token) (hp : p.Keeps)
    (hts : ∀ t ∈ ts, t.Lexed) (hord : Consecutive 1 (code ++ between.toList ++ ts))
    {items : List (Placed α)}
    (h : endedItems (between.toList.flatMap (·.comments)) p ts = some (items, us)) :
    ∃ xs, Listed p code false between ts xs ∧ items = xs.map (·.2) := by
  obtain ⟨⟨rev, before⟩, vs, hiterate, hpure⟩ := bind_run h
  obtain ⟨rfl, -⟩ := pure_run hpure
  obtain ⟨ws, ts', hget, hsteps⟩ := bind_run hiterate
  obtain ⟨rfl, rfl⟩ := pure_run hget
  obtain ⟨xs, hxs, rfl⟩ := of_endedSteps hp hts hord rfl hsteps
  exact ⟨xs, hxs, by simp⟩

/-- Items that are read in steps, each behind what ends the one before, are listed. -/
theorem of_separatedSteps (hp : p.Keeps) : ∀ {n : ℕ} {acc items : List (Placed α)} {ts us : List Token},
    (∀ t ∈ ts, t.Lexed) →
    steps (fun items => (· :: items) <$> do placed (← terminator) p) n acc ts = some (items, us) →
    ∃ (semicolon : Option Token) (left : List Token), ts = semicolon.toList ++ left ∧
      (∀ t ∈ semicolon, t.isSemicolon) ∧ ∀ code, Consecutive 1 (code ++ ts) →
        ∃ xs, Listed p code true semicolon left xs ∧ items = (xs.map (·.2)).reverse ++ acc
  | 0, acc, _, ts, _, _, h => by
    obtain ⟨rfl, -⟩ := pure_run h
    exact ⟨none, ts, rfl, nofun, fun _ _ => ⟨[], nil, rfl⟩⟩
  | n + 1, acc, items, ts, us, hts, h => by
    obtain ⟨o, vs, ho, hrest⟩ := bind_run h
    obtain ⟨acc', rfl, hstep⟩ | ⟨rfl, rfl⟩ := maybe_run ho
    · obtain ⟨x, hx, rfl⟩ := map_run hstep
      obtain ⟨cs, ws, hcs, hplaced⟩ := bind_run hx
      obtain ⟨semicolon, hsemicolon, rfl, rfl⟩ := terminator_run hcs
      have hws : ∀ t ∈ ws, t.Lexed := fun t ht => hts t (by simp [ht])
      have hvs : ∀ t ∈ vs, t.Lexed := fun t ht =>
        hws t (((hp.placed _).run hws hplaced).1.subset ht)
      -- How the rest divides into a semicolon and more items does not depend on the code before it,
      -- which takes the rest to know where this item ends.
      obtain ⟨semicolon', left, hleft, hsemicolon', hlisted⟩ := of_separatedSteps hp hvs hrest
      refine ⟨semicolon, ws, rfl, hsemicolon, fun code hord => ?_⟩
      rw [← List.append_assoc] at hord
      obtain ⟨s, item, hord', hcons⟩ := exists_cons hp hws hord true hplaced
      obtain ⟨xs, hxs, rfl⟩ := hlisted _ hord'
      exact ⟨(s, x) :: xs, hcons hleft hsemicolon' hxs, by simp⟩
    · obtain ⟨rfl, -⟩ := pure_run hrest
      exact ⟨none, vs, rfl, nofun, fun _ _ => ⟨[], nil, rfl⟩⟩

theorem of_separatedItems (between : Option Token) (hp : p.Keeps) (hts : ∀ t ∈ ts, t.Lexed)
    (hord : Consecutive 1 (code ++ between.toList ++ ts)) {items : List (Placed α)}
    (h : separatedItems (between.toList.flatMap (·.comments)) p ts = some (items, us)) :
    ∃ xs, Listed p code false between ts xs ∧ items = xs.map (·.2) := by
  obtain ⟨o, vs, ho, hrest⟩ := bind_run h
  obtain ⟨x, rfl, hx⟩ | ⟨rfl, rfl⟩ := maybe_run ho
  · have hvs : ∀ t ∈ vs, t.Lexed := fun t ht => hts t (((hp.placed _).run hts hx).1.subset ht)
    obtain ⟨rest, ws, hmany, hlast⟩ := bind_run hrest
    obtain ⟨_, vs', -, hpure⟩ := bind_run hlast
    obtain ⟨rfl, -⟩ := pure_run hpure
    obtain ⟨rev, hiterate, rfl⟩ := map_run hmany
    obtain ⟨vs', ts', hget, hsteps⟩ := bind_run hiterate
    obtain ⟨rfl, rfl⟩ := pure_run hget
    obtain ⟨semicolon, left, hleft, hsemicolon, hlisted⟩ := of_separatedSteps hp hvs hsteps
    obtain ⟨s, item, hord', hcons⟩ := exists_cons hp hts hord false hx
    obtain ⟨xs, hxs, rfl⟩ := hlisted _ hord'
    exact ⟨(s, x) :: xs, hcons hleft hsemicolon hxs, by simp⟩
  · obtain ⟨rfl, -⟩ := pure_run hrest
    exact ⟨[], nil, rfl⟩

theorem of_grouped (hp : p.Keeps) (hts : ∀ t ∈ ts, t.Lexed) (hord : Consecutive 1 (code ++ ts))
    {items : List (Placed α)} (h : grouped p ts = some (items, us)) :
    ∃ (between : Option Token) (body : List Token) (xs : List (Site × Placed α)),
      ts = between.toList ++ body ∧ Listed p code false between body xs ∧
        items = xs.map (·.2) := by
  obtain ⟨t, vs, ht, hrest⟩ := bind_run h
  obtain ⟨rfl, r, rfl⟩ := peek_run ht
  split at hrest
  · obtain ⟨u, body, ws, heq, -, hitems⟩ := between_run hrest
    obtain ⟨rfl, rfl⟩ := List.cons.inj heq
    rw [← comments_some] at hitems
    obtain ⟨xs, hxs, rfl⟩ := of_endedItems _ (some t) hp
      (fun u hu => hts u (List.mem_cons_of_mem _ hu)) (by simpa using hord) hitems
    exact ⟨some t, r, xs, rfl, hxs, rfl⟩
  · obtain ⟨x, ws, hx, hpure⟩ := bind_run hrest
    obtain ⟨rfl, -⟩ := pure_run hpure
    have hord : Consecutive 1 (code ++ (none : Option Token).toList ++ (t :: r)) := by
      simpa using hord
    obtain ⟨s, item, -, hcons⟩ := exists_cons hp hts hord false hx
    exact ⟨none, t :: r, [(s, x)], rfl, @hcons none _ [] rfl nofun nil, rfl⟩

end Listed

/-! ## Documented files -/

/-- The items of a list in a source, each with its site, and when they are documented by the comments
that belong to them. -/
structure ItemsAt (ts : List Token) (p : Phrase α) (code : List Token)
    (xs : List (Site × Placed α)) : Prop where
  listed : ∃ (between : Option Token) (body : List Token), ts = code ++ between.toList ++ body ∧
    Listed p code false between body xs
  noted_iff : ∀ x ∈ xs, x.1.noted = x.1.leading ↔ ∀ c ∈ x.1.noted, x.1.StartsBelow c
  /-- Behind an item one comment on the line on which that one ends is left out. -/
  single : ∀ x ∈ xs, x.1.follows → x.1.between = none →
    (∀ c ∈ x.1.first.comments.tail, x.1.StartsBelow c) → x.1.noted = x.1.leading

/-- The fields of a struct, each documented by the comments above its site. -/
def FieldsAt (ts code : List Token) (fs : List Field) : Prop :=
  ∃ n xs, ItemsAt ts (field (level n)) code xs ∧ fs = xs.map fun x => x.2.value x.1.doc

/-- The methods of an interface, each documented by the comments above its site. -/
def MethodsAt (ts code : List Token) (ms : List Method) : Prop :=
  ∃ n xs, ItemsAt ts (interfaceElement (level n)) code xs ∧
    ms = xs.filterMap fun x => x.2.value.map fun f => f x.1.doc x.2.first

/-- What a struct or an interface holds that is read of the tokens behind this code. -/
structure BodyAt (ts code us : List Token) (type : TypeExpr) : Prop where
  fields : ∀ fs, type = .struct fs → ∃ keyword brace body, us = keyword :: brace :: body ∧
    keyword.isWord "struct" ∧ brace.isSign "\x7b" ∧ FieldsAt ts (code ++ [keyword, brace]) fs
  methods : ∀ ms, type = .interface ms → ∃ keyword body, us = keyword :: body ∧
    keyword.isWord "interface" ∧ MethodsAt ts (code ++ [keyword]) ms

/-- The types that are declared at a site, each documented by the comments above its own site and, if
these say nothing, as the declaration. What a struct or an interface holds stands where the type is
read. -/
def TypesAt (ts : List Token) (s : Site) (specs : List TypeSpec) : Prop :=
  ∃ n xs, ItemsAt ts (typeSpec (level n)) (s.codeBefore ++ [s.first]) xs ∧
    specs = xs.filterMap (fun x => x.2.value.map fun f =>
      f (if x.1.doc = "" then s.doc else x.1.doc) x.2.first) ∧
    ∀ x ∈ xs, ∀ f ∈ x.2.value, ∃ before us left, x.1.rest = before ++ us ∧
      typeSpec (level n) (x.1.first :: x.1.rest) = some (some f, left) ∧ ∀ doc line,
        (level n).type true us = some ((f doc line).type, left) ∧
          BodyAt ts (x.1.codeBefore ++ x.1.first :: before) us (f doc line).type

/-- The declarations of a file, each documented by the comments above its site. -/
def DeclarationsAt (ts : List Token) (ds : List Documented) : Prop :=
  ∃ n xs, ItemsAt ts (declaration (level n)) [] xs ∧
    ds = xs.map (fun x => ⟨x.1.doc, x.2.first, x.2.value x.1.doc⟩) ∧
    ∀ x ∈ xs, ∀ specs, x.2.value x.1.doc = .types specs → TypesAt ts x.1 specs

section Files

variable {ts : List Token} (hts : ∀ t ∈ ts, t.Lexed) (hord : Consecutive 1 ts)

include hts hord

theorem itemsAt_of_listed {code body : List Token} {between : Option Token}
    {xs : List (Site × Placed α)} (heq : ts = code ++ between.toList ++ body)
    (hcode : code ≠ [] ∨ p.Passes) (h : Listed p code false between body xs) :
    ItemsAt ts p code xs := by
  have hin : ∀ x ∈ xs, Consecutive 1 x.1.tokens := fun x hx => by rwa [h.tokens_eq x hx, ← heq]
  have hne := h.code_ne_nil hcode (fun t ht => hts t (by simp [heq, ht])) nofun
  exact ⟨⟨between, body, heq, h⟩, fun x hx => Site.noted_eq_leading_iff (hin x hx) (hne x hx),
    fun x hx => Site.noted_eq_leading (hin x hx) (hne x hx)⟩

theorem fieldsAt_of_run {n : ℕ} {before r us : List Token} {keyword : Token} {fs : List Field}
    (heq : ts = before ++ keyword :: r) (hrun : fields (level n) r = some (fs, us)) :
    ∃ brace body, r = brace :: body ∧ brace.isSign "\x7b" ∧
      FieldsAt ts (before ++ [keyword, brace]) fs := by
  obtain ⟨brace, body, items, vs, rfl, hbrace, hitems, rfl⟩ := fields_run hrun
  obtain rfl : ts = before ++ [keyword, brace] ++ (none : Option Token).toList ++ body := by
    simpa using heq
  obtain ⟨xs, hxs, rfl⟩ := Listed.of_separatedItems none (lexes_level n).keeps_field
    (fun t ht => hts t (List.mem_append_right _ ht)) hord hitems
  refine ⟨brace, body, rfl, hbrace, n, xs, itemsAt_of_listed hts hord rfl (.inl (by simp)) hxs, ?_⟩
  rw [hxs.documented_eq]

theorem methodsAt_of_run {n : ℕ} {before r us : List Token} {keyword : Token} {ms : List Method}
    (heq : ts = before ++ keyword :: r) (hrun : methods (level n) r = some (ms, us)) :
    MethodsAt ts (before ++ [keyword]) ms := by
  obtain ⟨brace, body, items, vs, rfl, -, hitems, rfl⟩ := methods_run hrun
  obtain rfl : ts = before ++ [keyword] ++ (some brace).toList ++ body := by simpa using heq
  rw [← comments_some] at hitems
  obtain ⟨xs, hxs, rfl⟩ := Listed.of_separatedItems (some brace)
    (lexes_level n).yields_interfaceElement.keeps
    (fun t ht => hts t (List.mem_append_right _ ht)) hord hitems
  refine ⟨n, xs, itemsAt_of_listed hts hord rfl (.inl (by simp)) hxs, ?_⟩
  rw [hxs.documented_eq, List.filterMap_map, Function.id_comp]

theorem bodyAt_of_run {n : ℕ} {code us us' : List Token} {type : TypeExpr}
    (heq : ts = code ++ us) (hrun : (level n).type true us = some (type, us')) :
    BodyAt ts code us type := by
  cases n with
  | zero => exact absurd hrun nofun
  | succ n =>
    refine ⟨?_, ?_⟩
    · rintro fs rfl
      obtain ⟨keyword, r, rfl, ⟨fs', hfs, hkeyword, hfields⟩ | ⟨ms, hms, -⟩⟩ := body_run rfl hrun
      · obtain rfl := TypeExpr.struct.inj hfs
        obtain ⟨brace, body, rfl, hbrace, hat⟩ := fieldsAt_of_run hts hord heq hfields
        exact ⟨keyword, brace, body, rfl, hkeyword, hbrace, hat⟩
      · exact absurd hms nofun
    · rintro ms rfl
      obtain ⟨keyword, r, rfl, ⟨fs, hfs, -⟩ | ⟨ms', hms, hkeyword, hmethods⟩⟩ := body_run rfl hrun
      · exact absurd hfs nofun
      · obtain rfl := TypeExpr.interface.inj hms
        exact ⟨keyword, r, rfl, hkeyword, methodsAt_of_run hts hord heq hmethods⟩

theorem typesAt_of_run {n : ℕ} {s : Site} {us : List Token} {d : String → Declaration}
    {specs : List TypeSpec} (heq : s.tokens = ts)
    (hrun : declaration (level n) (s.first :: s.rest) = some (d, us))
    (hd : d s.doc = .types specs) : TypesAt ts s specs := by
  have htypes : (d s.doc).isTypes := by rw [hd]; rfl
  obtain ⟨keyword, r, items, hcons, hitems, rfl⟩ := typeDecl_run (declaration_run hrun htypes)
  obtain ⟨rfl, rfl⟩ := List.cons.inj hcons
  have heq : ts = s.codeBefore ++ [s.first] ++ s.rest := by simp [← heq, Site.tokens]
  have hrest : ∀ t ∈ s.rest, t.Lexed := fun t ht => hts t (by simp [heq, ht])
  obtain ⟨between, body, xs, hbody, hxs, rfl⟩ :=
    Listed.of_grouped (lexes_level n).yields_typeSpec.keeps hrest (heq ▸ hord) hitems
  rw [hbody, ← List.append_assoc] at heq
  refine ⟨n, xs, itemsAt_of_listed hts hord heq (.inl (by simp)) hxs, ?_, ?_⟩
  · rw [← Declaration.types.inj hd, hxs.documented_eq, List.filterMap_map, Function.id_comp]
  · intro x hx f hf
    obtain ⟨left, hspec⟩ := hxs.run x hx
    rw [Option.mem_def.1 hf] at hspec
    have hx : ts = x.1.codeBefore ++ x.1.first :: x.1.rest := by
      rw [heq, ← hxs.tokens_eq x hx, Site.tokens]
    obtain ⟨name, before, vs, type, hcons, htype, rfl⟩ :=
      typeSpec_run (lexes_level n) (fun t ht => hts t (by rw [hx]; simp [ht])) hspec
    obtain ⟨rfl, hrest⟩ := List.cons.inj hcons
    have hbody : ts = x.1.codeBefore ++ x.1.first :: before ++ vs := by
      rw [hx, hrest, List.append_assoc, List.cons_append]
    exact ⟨before, vs, left, hrest, hspec, fun _ _ => ⟨htype, bodyAt_of_run hts hord hbody htype⟩⟩

end Files

/-- In every file that is read, the declarations, the types, the fields of structs and the methods of
interfaces are documented by the comments above their sites. -/
theorem SourceFile.documented_at_sites {name : String} {bytes : List UInt8} {f : SourceFile}
    (h : ofBytes name bytes = .ok f) : ∃ ts ds, tokens? (Utf8.decodeParts none bytes) = some ts ∧
      DeclarationsAt ts ds ∧ f = ofDeclarations name ds := by
  obtain ⟨ds, hds, rfl⟩ := exists_of_ofBytes h
  obtain ⟨ts, htokens, hfile⟩ := Option.bind_eq_some_iff.1 hds
  obtain ⟨⟨ds', rest⟩, hrun, hds'⟩ := Option.bind_eq_some_iff.1 hfile
  obtain rfl := Option.some.inj hds'
  obtain ⟨items, us, hitems, hrest⟩ := bind_run hrun
  obtain ⟨_, vs, -, hpure⟩ := bind_run hrest
  obtain ⟨rfl, -⟩ := pure_run hpure
  have hts := lexed_of_tokens? htokens
  have hord := consecutive_of_tokens? htokens
  have htakes := takes_declaration (lexes_level (ts.length + 1))
  obtain ⟨xs, hxs, rfl⟩ := Listed.of_endedItems [] none htakes.passes.keeps hts hord hitems
  refine ⟨ts, _, htokens, ⟨ts.length + 1, xs,
    itemsAt_of_listed hts hord rfl (.inr htakes.passes) hxs, hxs.documented_eq _, ?_⟩, rfl⟩
  intro x hx specs hspecs
  obtain ⟨left, hdeclaration⟩ := hxs.run x hx
  exact typesAt_of_run hts hord (hxs.tokens_eq x hx) hdeclaration hspecs

/-- A struct with comments above it, above a field and behind one. -/
def cacheSource : List UInt8 :=
  (Text.unlines
    ["package store", "", "// Cache holds values.", "// One per process.", "type Cache struct \x7b",
      "\tn int // of entries", "\t/* its name */", "\tname string", "\x7d"]).toUTF8.toList

/-- What is read of `cacheSource`. -/
def cacheFile : SourceFile :=
  { name := "store.go", package := "store"
    structs := [{ name := "Cache", doc := "Cache holds values.\nOne per process.", file := "store.go"
                  line := 5
                  fields := [{ name := "n", type := "int" },
                    { name := "name", type := "string", doc := "its name" }] }] }

theorem documented_at_sites_cache : SourceFile.ofBytes "store.go" cacheSource = .ok cacheFile ∧
    ∃ ts ds, tokens? (Utf8.decodeParts none cacheSource) = some ts ∧ DeclarationsAt ts ds ∧
      cacheFile = SourceFile.ofDeclarations "store.go" ds := by
  have h : SourceFile.ofBytes "store.go" cacheSource = .ok cacheFile :=
    toOption_eq_some_iff.1 (by decide +kernel)
  exact ⟨h, SourceFile.documented_at_sites h⟩

/-- A struct with one field, and a text behind its opening brace. -/
def serverText (behind : String) : List UInt8 :=
  (Text.unlines
    ["package p", "", "type Server struct \x7b" ++ behind, "\tAddr string",
      "\x7d"]).toUTF8.toList

/-- The site of the field in `serverText`. -/
def serverSite? : List Token → Option Site
  | t₁ :: t₂ :: t₃ :: t₄ :: t₅ :: brace :: name :: ts =>
    some ⟨[t₁, t₂, t₃, t₄, t₅, brace], false, none, name, ts⟩
  | _ => none

/-- A comment behind the opening brace of a struct documents the first field, though no comment
belongs to that. -/
theorem field_documented_by_brace :
    (SourceFile.ofBytes "server.go" (serverText "")).toOption.map
        (fun f => f.structs.map fun s => s.fields.map (·.doc)) = some [[""]] ∧
      (SourceFile.ofBytes "server.go" (serverText " // trailing")).toOption.map
        (fun f => f.structs.map fun s => s.fields.map (·.doc)) = some [["trailing"]] ∧
      ((tokens? (Utf8.decodeParts none (serverText " // trailing"))).bind serverSite?).map
        (fun s => (s.first.text, s.doc, s.leading)) = some ("Addr", "trailing", []) := by
  decide +kernel

end Atlas.Golang
