import Atlas.Proofs.Golang.Entries

/-!
# Signatures that are read back

What a text shows of a type is read back from it wherever it stands, up to the comma or the bracket
after it (`TypeExpr.Normal.append_inj`): the word or the sign that opens the text tells which kind
of type it is, and then its parts are read back one after the other. So two signatures are the same
just if they show the same entries (`signature_eq_iff`). This needs that names are words
(`Parameter.Lexed`), as they are in a source, and that no comment, approximation or union stands in
place of a type (`plainParameters`).
-/

set_option linter.unusedSectionVars false

namespace Atlas.Golang

/-! ## Words -/

/-- A text of letters, digits and underscores, as words and names are. -/
structure IsWord (s : String) : Prop where
  ne_nil : s.toList ≠ []
  letters : ∀ c ∈ s.toList, Chars.isIdentifierContinue c

/-- A word that may be a name where a type may stand. -/
structure IsTypeName (s : String) : Prop extends IsWord s where
  notReserved : s ∉ typeWords

/-- Whether a word that stands before a text ends there. -/
def EndsWord (x : List Char) : Prop := ∀ c ∈ x.head?, Chars.isIdentifierContinue c = false

theorem endsWord_cons {c : Char} {x : List Char} (h : Chars.isIdentifierContinue c = false) :
    EndsWord (c :: x) := by
  simpa [EndsWord] using h

theorem IsWord.takeWhile_append {s : String} (hs : IsWord s) {x : List Char} (hx : EndsWord x) :
    (s.toList ++ x).takeWhile Chars.isIdentifierContinue = s.toList := by
  have hnil : x.takeWhile Chars.isIdentifierContinue = [] := by
    cases x with
    | nil => rfl
    | cons c x => exact List.takeWhile_cons_of_neg (by simpa [EndsWord] using hx)
  rw [List.takeWhile_append_of_pos hs.letters, hnil, List.append_nil]

/-- A word is read back where it ends. -/
theorem IsWord.append_inj {s s' : String} (hs : IsWord s) (hs' : IsWord s') {x y : List Char}
    (hx : EndsWord x) (hy : EndsWord y) (h : s.toList ++ x = s'.toList ++ y) : s = s' ∧ x = y := by
  have hlist : s.toList = s'.toList := by rw [← hs.takeWhile_append hx, h, hs'.takeWhile_append hy]
  exact ⟨String.toList_inj.1 hlist, List.append_cancel_left (hlist ▸ h)⟩

/-! ## Types that are shown -/

/-- A name, perhaps from a package. -/
inductive TypeExpr.IsBase : TypeExpr → Prop
  | name {n : String} : IsTypeName n → IsBase (.name n)
  | qualified {p n : String} : IsTypeName p → IsWord n → IsBase (.qualified p n)

/-- Whether names of parameters are words that may be names there. -/
def Parameter.NamesLexed (p : Parameter) : Prop := ∀ n ∈ p.names, IsTypeName n

/-- Whether a parameter is an entry of its own. -/
def Parameter.IsEntry (p : Parameter) : Prop := p.NamesLexed ∧ p.names.length ≤ 1

/-- A type without parentheses, lengths and bodies whose names are words. -/
inductive TypeExpr.Normal : TypeExpr → Prop
  | base {b : TypeExpr} : b.IsBase → Normal b
  | generic {b : TypeExpr} {arguments : List TypeExpr} : b.IsBase → arguments ≠ [] →
      (∀ t ∈ arguments, Normal t) → Normal (.generic b arguments)
  | pointer {t : TypeExpr} : Normal t → Normal (.pointer t)
  | list {t : TypeExpr} : Normal t → Normal (.list t)
  | map {key value : TypeExpr} : Normal key → Normal value → Normal (.map key value)
  | both {t : TypeExpr} : Normal t → Normal (.channel .both t)
  | send {t : TypeExpr} : Normal t → Normal (.channel .send t)
  | receive {t : TypeExpr} : Normal t → Normal (.channel .receive t)
  | function {ps rs : List Parameter} : (∀ p ∈ ps ++ rs, p.IsEntry) →
      (∀ p ∈ ps ++ rs, Normal p.type) → Normal (.function ps rs)
  | struct : Normal (.struct [])
  | interface : Normal (.interface [])

/-- A parameter that is an entry of its own, with a type that is shown. -/
def Parameter.Normal (p : Parameter) : Prop := p.IsEntry ∧ p.type.Normal

/-! ## Texts that are read back -/

/-- Whether a type that stands before a text ends there. -/
def EndsType (x : List Char) : Prop := ∀ c ∈ x.head?, c ∈ [',', ')', ']']

/-- Whether a text starts with a bracket that closes a list of types or parameters. -/
def Closes (x : List Char) : Prop := ∃ c r, x = c :: r ∧ c ∈ [')', ']']

theorem isIdentifierContinue_of_endsType :
    ∀ c ∈ [',', ')', ']'], Chars.isIdentifierContinue c = false := by
  simp only [List.forall_mem_cons]
  exact ⟨by decide, by decide, by decide, List.forall_mem_nil _⟩

/-- Whether something is read back from its text, wherever it ends. -/
def ReadsBack {α : Type} (text : α → String) (good : α → Prop) (a : α) : Prop :=
  ∀ {b : α}, good b → ∀ {x y : List Char}, EndsType x → EndsType y →
    (text a).toList ++ x = (text b).toList ++ y → a = b ∧ x = y

theorem EndsType.endsWord {x : List Char} (h : EndsType x) : EndsWord x :=
  fun c hc => isIdentifierContinue_of_endsType c (h c hc)

theorem closes_cons {c : Char} (h : c ∈ [')', ']']) (x : List Char) : Closes (c :: x) :=
  ⟨c, x, rfl, h⟩

theorem not_closes_cons {c : Char} (h : c ∉ [')', ']']) (x : List Char) : ¬Closes (c :: x) := by
  rintro ⟨d, r, heq, hd⟩
  exact h ((List.cons.inj heq).1 ▸ hd)

theorem Closes.endsType {x : List Char} (h : Closes x) : EndsType x := by
  obtain ⟨c, r, rfl, hc⟩ := h
  simpa [EndsType] using List.mem_cons_of_mem _ hc

/-! ## Openings -/

/-- The reserved word or the sign that stands first in a text; nothing for another word. -/
def openingOf (x : List Char) : String :=
  match x.takeWhile Chars.isIdentifierContinue with
  | [] => String.ofList (x.take 1)
  | c :: w => if typeWords.contains (String.ofList (c :: w)) then String.ofList (c :: w) else ""

/-- The reserved word or the sign that opens the text of a type; nothing for a type with a name. -/
def TypeExpr.opening : TypeExpr → String
  | .pointer _ => "*"
  | .list _ => "["
  | .channel .receive _ => "<"
  | .channel _ _ => "chan"
  | .map _ _ => "map"
  | .function _ _ => "func"
  | .struct _ => "struct"
  | .interface _ => "interface"
  | _ => ""

theorem openingOf_sign {c : Char} (h : Chars.isIdentifierContinue c = false) (x : List Char) :
    openingOf (c :: x) = String.ofList [c] := by
  simp [openingOf, h]

theorem openingOf_word {w : String} (hw : IsWord w) {x : List Char} (hx : EndsWord x) :
    openingOf (w.toList ++ x) = if w ∈ typeWords then w else "" := by
  rw [openingOf, hw.takeWhile_append hx]
  have hofList : String.ofList w.toList = w := String.ofList_toList
  cases hlist : w.toList with
  | nil => exact absurd hlist hw.ne_nil
  | cons c r =>
    rw [hlist] at hofList
    simp [hofList]

theorem isWord_of_mem_typeWords {w : String} (h : w ∈ typeWords) : IsWord w := by
  have hne : ∀ w ∈ typeWords, w.toList ≠ [] := by decide
  have hletters : ∀ w ∈ typeWords, w.toList.all Chars.isIdentifierContinue := by decide
  exact ⟨hne w h, List.all_eq_true.1 (hletters w h)⟩

theorem openingOf_typeWord {w : String} (h : w ∈ typeWords) {x : List Char} (hx : EndsWord x) :
    openingOf (w.toList ++ x) = w := by
  rw [openingOf_word (isWord_of_mem_typeWords h) hx, if_pos h]

theorem openingOf_typeName {n : String} (h : IsTypeName n) {x : List Char} (hx : EndsWord x) :
    openingOf (n.toList ++ x) = "" := by
  rw [openingOf_word h.toIsWord hx, if_neg h.notReserved]

theorem TypeExpr.IsBase.openingOf_text {b : TypeExpr} (hb : b.IsBase) {x : List Char}
    (hx : EndsWord x) : openingOf (b.text.toList ++ x) = "" := by
  cases hb with
  | name hn => exact openingOf_typeName hn hx
  | qualified hp _ =>
    simp only [text, String.toList_append, List.append_assoc]
    exact openingOf_typeName hp (endsWord_cons (by decide))

/-- What follows the parameters of a signature: its results, if it has any, and the text after. -/
def afterParameters (results : List String) (x : List Char) : List Char :=
  if ", ".intercalate results = "" then x
  else ' ' :: '(' :: ((", ".intercalate results).toList ++ ')' :: x)

theorem signatureText_append (ps rs : List String) (x : List Char) :
    (signatureText ps rs).toList ++ x =
      '(' :: ((", ".intercalate ps).toList ++ ')' :: afterParameters rs x) := by
  rw [signatureText, afterParameters]
  split <;> simp

theorem TypeExpr.text_generic_append (b : TypeExpr) (arguments : List TypeExpr) (x : List Char) :
    (TypeExpr.generic b arguments).text.toList ++ x = b.text.toList ++
      '[' :: ((", ".intercalate (arguments.map TypeExpr.text)).toList ++ ']' :: x) := by
  simp [text, typeTexts_eq_map]

theorem TypeExpr.Normal.openingOf_text {t : TypeExpr} (ht : t.Normal) {x : List Char}
    (hx : EndsType x) : openingOf (t.text.toList ++ x) = t.opening := by
  cases ht with
  | base hb =>
    rw [hb.openingOf_text hx.endsWord]
    cases hb <;> rfl
  | generic hb _ _ =>
    rw [text_generic_append]
    exact hb.openingOf_text (endsWord_cons (by decide))
  | pointer _ =>
    rw [text, String.toList_append, List.append_assoc]
    exact openingOf_sign (c := '*') (by decide) _
  | list _ =>
    rw [text, String.toList_append, List.append_assoc]
    exact openingOf_sign (c := '[') (by decide) _
  | map _ _ =>
    simp only [text, String.toList_append, List.append_assoc]
    exact openingOf_typeWord (w := "map") (by decide) (endsWord_cons (c := '[') (by decide))
  | both _ =>
    rw [text, String.toList_append, List.append_assoc]
    exact openingOf_typeWord (w := "chan") (by decide) (endsWord_cons (c := ' ') (by decide))
  | send _ =>
    rw [text, String.toList_append, List.append_assoc]
    exact openingOf_typeWord (w := "chan") (by decide) (endsWord_cons (c := '<') (by decide))
  | receive _ =>
    rw [text, String.toList_append, List.append_assoc]
    exact openingOf_sign (c := '<') (by decide) _
  | function _ _ =>
    rw [text, String.toList_append, List.append_assoc, signatureText_append]
    exact openingOf_typeWord (by decide) (endsWord_cons (by decide))
  | struct =>
    exact openingOf_typeWord (w := "struct") (by decide) (endsWord_cons (c := '\x7b') (by decide))
  | interface =>
    exact openingOf_typeWord (w := "interface") (by decide)
      (endsWord_cons (c := '\x7b') (by decide))

/-! ## Lists of texts -/

/-- What follows the first of some texts with commas between, before another text. -/
def afterFirst : List String → List Char → List Char
  | [], x => x
  | t :: ts, x => ',' :: ' ' :: ((", ".intercalate (t :: ts)).toList ++ x)

theorem intercalate_append (t : String) (ts : List String) (x : List Char) :
    (", ".intercalate (t :: ts)).toList ++ x = t.toList ++ afterFirst ts x := by
  cases ts with
  | nil => rw [String.intercalate_singleton, afterFirst]
  | cons u ts => simp [String.intercalate_cons_cons, afterFirst]

theorem Closes.endsType_afterFirst {x : List Char} (hx : Closes x) (ts : List String) :
    EndsType (afterFirst ts x) := by
  cases ts with
  | nil => exact hx.endsType
  | cons t ts => simp [afterFirst, EndsType]

/-- Texts with commas between are read back up to the bracket after them, if each of them is and
none starts with a bracket that closes. -/
theorem intercalate_append_inj {α : Type} {text : α → String} {good : α → Prop}
    (hopen : ∀ a, good a → ∀ x, ¬Closes ((text a).toList ++ x)) {l : List α} :
    ∀ {l' : List α}, (∀ a ∈ l, good a ∧ ReadsBack text good a) → (∀ b ∈ l', good b) →
      ∀ {x y : List Char}, Closes x → Closes y →
        (", ".intercalate (l.map text)).toList ++ x = (", ".intercalate (l'.map text)).toList ++ y →
          l = l' ∧ x = y := by
  induction l with
  | nil =>
    intro l' _ hl' x y hx hy h
    cases l' with
    | nil => exact ⟨rfl, by simpa using h⟩
    | cons b l' =>
      rw [List.map_cons, intercalate_append] at h
      have hx' : Closes ((text b).toList ++ afterFirst (l'.map text) y) := by simpa [← h] using hx
      exact absurd hx' (hopen b (hl' b List.mem_cons_self) _)
  | cons a l ih =>
    intro l' hl hl' x y hx hy h
    obtain ⟨⟨hgood, hread⟩, hl⟩ := List.forall_mem_cons.1 hl
    rw [List.map_cons, intercalate_append] at h
    cases l' with
    | nil =>
      have hy' : Closes ((text a).toList ++ afterFirst (l.map text) x) := by simpa [h] using hy
      exact absurd hy' (hopen a hgood _)
    | cons b l' =>
      obtain ⟨hb, hgood'⟩ := List.forall_mem_cons.1 hl'
      rw [List.map_cons, intercalate_append] at h
      obtain ⟨rfl, hrest⟩ := hread hb (hx.endsType_afterFirst _) (hy.endsType_afterFirst _) h
      cases l <;> cases l' <;> simp only [List.map_nil, List.map_cons, afterFirst] at hrest
      case nil.nil => exact ⟨rfl, hrest⟩
      case nil.cons => exact absurd (hrest ▸ hx) (not_closes_cons (by decide) _)
      case cons.nil => exact absurd (hrest ▸ hy) (not_closes_cons (by decide) _)
      case cons.cons =>
        obtain ⟨hll, hxy⟩ := ih hl hgood' hx hy (List.cons.inj (List.cons.inj hrest).2).2
        exact ⟨by rw [hll], hxy⟩

/-! ## Types and signatures that are read back -/

/-- A base is read back where neither a word nor a qualified name goes on. -/
theorem TypeExpr.IsBase.append_inj {b b' : TypeExpr} (hb : b.IsBase) (hb' : b'.IsBase)
    {x y : List Char} (hx : EndsWord x) (hy : EndsWord y) (hdot : x.head? ≠ some '.')
    (hdot' : y.head? ≠ some '.') (h : b.text.toList ++ x = b'.text.toList ++ y) :
    b = b' ∧ x = y := by
  have hend : ∀ {r : List Char}, EndsWord ('.' :: r) := endsWord_cons (by decide)
  cases hb with
  | name hn =>
    cases hb' with
    | name hn' =>
      obtain ⟨rfl, hxy⟩ := hn.append_inj hn'.toIsWord hx hy h
      exact ⟨rfl, hxy⟩
    | qualified hp' _ =>
      simp only [text, String.toList_append, List.append_assoc] at h
      obtain ⟨-, rfl⟩ := hn.append_inj hp'.toIsWord hx hend h
      exact absurd rfl hdot
  | qualified hp hn =>
    cases hb' with
    | name hn' =>
      simp only [text, String.toList_append, List.append_assoc] at h
      obtain ⟨-, rfl⟩ := hp.append_inj hn'.toIsWord hend hy h
      exact absurd rfl hdot'
    | qualified hp' hn' =>
      simp only [text, String.toList_append, List.append_assoc] at h
      obtain ⟨rfl, hrest⟩ := hp.append_inj hp'.toIsWord hend hend h
      obtain ⟨rfl, hxy⟩ := hn.append_inj hn' hx hy (List.cons.inj hrest).2
      exact ⟨rfl, hxy⟩

theorem IsWord.not_closes {s : String} (h : IsWord s) (x : List Char) :
    ¬Closes (s.toList ++ x) := by
  obtain ⟨c, r, hs⟩ := List.exists_cons_of_ne_nil h.ne_nil
  have hc : Chars.isIdentifierContinue c := h.letters c (hs ▸ List.mem_cons_self)
  rw [hs, List.cons_append]
  refine not_closes_cons (fun hmem => ?_) _
  simp [isIdentifierContinue_of_endsType c (List.mem_cons_of_mem _ hmem)] at hc

theorem TypeExpr.IsBase.not_closes {b : TypeExpr} (hb : b.IsBase) (x : List Char) :
    ¬Closes (b.text.toList ++ x) := by
  cases hb with
  | name hn => exact hn.not_closes x
  | qualified hp _ =>
    simp only [text, String.toList_append, List.append_assoc]
    exact hp.not_closes _

theorem TypeExpr.Normal.not_closes {t : TypeExpr} (ht : t.Normal) (x : List Char) :
    ¬Closes (t.text.toList ++ x) := by
  cases ht with
  | base hb => exact hb.not_closes x
  | generic hb _ _ =>
    rw [text_generic_append]
    exact hb.not_closes _
  | _ =>
    simp only [text, String.toList_append, List.append_assoc]
    exact not_closes_cons (by decide) _

theorem TypeExpr.IsBase.opening_eq {b : TypeExpr} (hb : b.IsBase) : b.opening = "" := by
  cases hb <;> rfl

theorem TypeExpr.same_opening {t u : TypeExpr} (ht : t.Normal) (hu : u.Normal) {x y : List Char}
    (hx : EndsType x) (hy : EndsType y) (h : t.text.toList ++ x = u.text.toList ++ y) :
    u.opening = t.opening := by
  rw [← ht.openingOf_text hx, h, hu.openingOf_text hy]

theorem EndsType.ne_dot {x : List Char} (h : EndsType x) : x.head? ≠ some '.' := by
  intro heq
  exact absurd (h '.' (by simp [heq])) (by decide)

/-! ### Parameters -/

/-- The text of the type of a parameter, with the mark of the last parameter of a function with any
number of arguments. -/
def markedText (variadic : Bool) (type : TypeExpr) : String :=
  if variadic then "..." ++ type.text else type.text

theorem openingOf_markedText {v : Bool} {t : TypeExpr} (ht : t.Normal) {x : List Char}
    (hx : EndsType x) :
    openingOf ((markedText v t).toList ++ x) = if v then "." else t.opening := by
  cases v with
  | false => exact ht.openingOf_text hx
  | true =>
    rw [markedText, if_pos rfl, String.toList_append, List.append_assoc]
    exact openingOf_sign (c := '.') (by decide) _

theorem TypeExpr.opening_ne_dot (t : TypeExpr) : t.opening ≠ "." := by
  unfold opening
  split <;> decide

theorem markedText_append_inj {v v' : Bool} {t u : TypeExpr} (ht : t.Normal) (hu : u.Normal)
    (hread : ReadsBack TypeExpr.text TypeExpr.Normal t) {x y : List Char} (hx : EndsType x)
    (hy : EndsType y)
    (h : (markedText v t).toList ++ x = (markedText v' u).toList ++ y) :
    v = v' ∧ t = u ∧ x = y := by
  have ho := openingOf_markedText (v := v) ht hx
  rw [h, openingOf_markedText hu hy] at ho
  cases v <;> cases v'
  case false.false => exact ⟨rfl, hread hu hx hy h⟩
  case true.true =>
    simp only [markedText, if_pos, String.toList_append, List.append_assoc] at h
    exact ⟨rfl, hread hu hx hy (List.append_cancel_left h)⟩
  case false.true => exact absurd ho.symm t.opening_ne_dot
  case true.false => exact absurd ho u.opening_ne_dot

/-- The type of a parameter is not taken for a name with a type after it. -/
theorem markedText_ne_named {v : Bool} {t : TypeExpr} (ht : t.Normal) {n : String}
    (hn : IsTypeName n) {x y : List Char} (hx : EndsType x) :
    (markedText v t).toList ++ x ≠ n.toList ++ ' ' :: y := by
  intro h
  have ho := openingOf_markedText (v := v) ht hx
  have hspace : EndsWord (' ' :: y) := endsWord_cons (by decide)
  rw [h, openingOf_typeName hn hspace] at ho
  cases v with
  | true => simp at ho
  | false =>
    replace h : t.text.toList ++ x = n.toList ++ ' ' :: y := h
    cases ht with
    | base hb =>
      obtain ⟨-, rfl⟩ := hb.append_inj (.name hn) hx.endsWord hspace hx.ne_dot (by simp) h
      simp [EndsType] at hx
    | generic hb _ _ =>
      rw [TypeExpr.text_generic_append] at h
      obtain ⟨-, hbracket⟩ := hb.append_inj (.name hn) (endsWord_cons (by decide)) hspace
        (by simp) (by simp) h
      simp at hbracket
    | _ => simp [TypeExpr.opening] at ho

/-- The text of a parameter that is an entry of its own: its name, if it has one, and its type. -/
theorem Parameter.IsEntry.cases {p : Parameter} (hp : p.IsEntry) :
    (∃ v t, p = .mk [] v t ∧ p.text = markedText v t) ∨
      ∃ n v t, p = .mk [n] v t ∧ IsTypeName n ∧ p.text = n ++ " " ++ markedText v t := by
  obtain ⟨names, v, t⟩ := p
  obtain ⟨hnames, hlength⟩ := hp
  match names with
  | [] => exact .inl ⟨v, t, rfl, rfl⟩
  | [n] =>
    exact .inr ⟨n, v, t, rfl, hnames n (by simp [Parameter.names]), by simp [text, markedText]⟩
  | _ :: _ :: _ => simp [Parameter.names] at hlength

theorem Parameter.Normal.append_inj {p : Parameter} (hp : p.Normal)
    (hread : ReadsBack TypeExpr.text TypeExpr.Normal p.type) :
    ReadsBack Parameter.text Parameter.Normal p := by
  intro q hq x y hx hy h
  have hspace : ∀ {r}, EndsWord (' ' :: r) := endsWord_cons (by decide)
  obtain ⟨hentry, ht⟩ := hp
  obtain ⟨hentry', hu⟩ := hq
  obtain ⟨v, t, rfl, htext⟩ | ⟨n, v, t, rfl, hn, htext⟩ := hentry.cases <;>
    obtain ⟨v', u, rfl, htext'⟩ | ⟨n', v', u, rfl, hn', htext'⟩ := hentry'.cases <;>
    simp only [htext, htext', String.toList_append, List.append_assoc] at h
  · obtain ⟨rfl, rfl, hxy⟩ := markedText_append_inj ht hu hread hx hy h
    exact ⟨rfl, hxy⟩
  · exact absurd h (markedText_ne_named ht hn' hx)
  · exact absurd h.symm (markedText_ne_named hu hn hy)
  · obtain ⟨rfl, hrest⟩ := hn.append_inj hn'.toIsWord hspace hspace h
    obtain ⟨rfl, rfl, hxy⟩ := markedText_append_inj ht hu hread hx hy (List.cons.inj hrest).2
    exact ⟨rfl, hxy⟩

theorem Parameter.Normal.not_closes {p : Parameter} (hp : p.Normal) (x : List Char) :
    ¬Closes (p.text.toList ++ x) := by
  obtain ⟨hentry, ht⟩ := hp
  obtain ⟨v, t, rfl, htext⟩ | ⟨n, v, t, rfl, hn, htext⟩ := hentry.cases
  · rw [htext]
    cases v with
    | false => exact ht.not_closes x
    | true =>
      rw [markedText, if_pos rfl, String.toList_append, List.append_assoc]
      exact not_closes_cons (by decide) _
  · rw [htext, String.toList_append, String.toList_append, List.append_assoc, List.append_assoc]
    exact hn.not_closes _

/-! ### Signatures -/

theorem intercalate_parameterTexts_ne {p : Parameter} (hp : p.Normal) (ps : List Parameter) :
    ", ".intercalate (parameterTexts (p :: ps)) ≠ "" := by
  intro h
  have hclosed : Closes ((", ".intercalate (parameterTexts (p :: ps))).toList ++ [')']) := by
    rw [h]
    exact closes_cons (by decide) _
  rw [parameterTexts, intercalate_append] at hclosed
  exact hp.not_closes _ hclosed

theorem afterParameters_inj {rs rs' : List Parameter}
    (h : ∀ p ∈ rs, p.Normal ∧ ReadsBack Parameter.text Parameter.Normal p)
    (h' : ∀ p ∈ rs', p.Normal) {x y : List Char} (hx : EndsType x) (hy : EndsType y)
    (heq : afterParameters (parameterTexts rs) x = afterParameters (parameterTexts rs') y) :
    rs = rs' ∧ x = y := by
  have hnil : ∀ z, afterParameters (parameterTexts []) z = z := fun z => if_pos rfl
  have hcons : ∀ {p : Parameter} {qs z}, p.Normal → afterParameters (parameterTexts (p :: qs)) z =
      ' ' :: '(' :: ((", ".intercalate (parameterTexts (p :: qs))).toList ++ ')' :: z) :=
    fun hp => if_neg (intercalate_parameterTexts_ne hp _)
  cases rs with
  | nil =>
    cases rs' with
    | nil => exact ⟨rfl, heq⟩
    | cons q qs =>
      rw [hnil, hcons (h' q List.mem_cons_self)] at heq
      simp [heq, EndsType] at hx
  | cons p ps =>
    have hp : p.Normal := (h p List.mem_cons_self).1
    cases rs' with
    | nil =>
      rw [hnil, hcons hp] at heq
      simp [← heq, EndsType] at hy
    | cons q qs =>
      rw [hcons hp, hcons (h' q List.mem_cons_self), parameterTexts_eq_map,
        parameterTexts_eq_map] at heq
      obtain ⟨hlist, hend⟩ := intercalate_append_inj (fun p hp => hp.not_closes) h h'
        (closes_cons (by decide) _) (closes_cons (by decide) _)
        (List.cons.inj (List.cons.inj heq).2).2
      exact ⟨hlist, (List.cons.inj hend).2⟩

/-- Entries are read back from their signature, wherever it ends. -/
theorem signature_append_inj {ps rs ps' rs' : List Parameter}
    (h : ∀ p ∈ ps ++ rs, p.Normal ∧ ReadsBack Parameter.text Parameter.Normal p)
    (h' : ∀ p ∈ ps' ++ rs', p.Normal) {x y : List Char} (hx : EndsType x) (hy : EndsType y)
    (heq : (signatureText (parameterTexts ps) (parameterTexts rs)).toList ++ x =
      (signatureText (parameterTexts ps') (parameterTexts rs')).toList ++ y) :
    ps = ps' ∧ rs = rs' ∧ x = y := by
  obtain ⟨hps, hrs⟩ := List.forall_mem_append.1 h
  obtain ⟨hps', hrs'⟩ := List.forall_mem_append.1 h'
  rw [signatureText_append, signatureText_append, parameterTexts_eq_map ps,
    parameterTexts_eq_map ps'] at heq
  obtain ⟨rfl, hend⟩ := intercalate_append_inj (fun p hp => hp.not_closes) hps hps'
    (closes_cons (by decide) _) (closes_cons (by decide) _) (List.cons.inj heq).2
  obtain ⟨rfl, hxy⟩ := afterParameters_inj hrs hrs' hx hy (List.cons.inj hend).2
  exact ⟨rfl, rfl, hxy⟩

/-! ### Types -/

/-- A type is read back behind a mark. -/
theorem ReadsBack.prefixed {c : TypeExpr → TypeExpr} {mark : String}
    (hmark : ∀ t, (c t).text = mark ++ t.text) {t u : TypeExpr}
    (hread : ReadsBack TypeExpr.text TypeExpr.Normal t) (hu : u.Normal) {x y : List Char}
    (hx : EndsType x) (hy : EndsType y) (h : (c t).text.toList ++ x = (c u).text.toList ++ y) :
    c t = c u ∧ x = y := by
  simp only [hmark, String.toList_append, List.append_assoc] at h
  obtain ⟨rfl, hxy⟩ := hread hu hx hy (List.append_cancel_left h)
  exact ⟨rfl, hxy⟩

/-- A type is read back from its text, wherever it ends. -/
theorem TypeExpr.Normal.append_inj {t : TypeExpr} (ht : t.Normal) :
    ReadsBack TypeExpr.text TypeExpr.Normal t := by
  induction ht with
  | @base b hb =>
    intro u hu x y hx hy h
    have ho : u.opening = "" := (same_opening (.base hb) hu hx hy h).trans hb.opening_eq
    cases hu with
    | base hb' => exact hb.append_inj hb' hx.endsWord hy.endsWord hx.ne_dot hy.ne_dot h
    | generic hb' _ _ =>
      rw [text_generic_append] at h
      obtain ⟨-, rfl⟩ := hb.append_inj hb' hx.endsWord (endsWord_cons (by decide)) hx.ne_dot
        (by simp) h
      simp [EndsType] at hx
    | _ => simp [opening] at ho
  | @generic b arguments hb hne hts ih =>
    intro u hu x y hx hy h
    have ho : u.opening = "" := same_opening (.generic hb hne hts) hu hx hy h
    have hbracket : ∀ {r}, EndsWord ('[' :: r) := endsWord_cons (by decide)
    cases hu with
    | base hb' =>
      rw [text_generic_append] at h
      obtain ⟨-, rfl⟩ := hb.append_inj hb' hbracket hy.endsWord (by simp) hy.ne_dot h
      simp [EndsType] at hy
    | generic hb' _ hts' =>
      rw [text_generic_append, text_generic_append] at h
      obtain ⟨rfl, hrest⟩ := hb.append_inj hb' hbracket hbracket (by simp) (by simp) h
      obtain ⟨rfl, hend⟩ := intercalate_append_inj (fun t ht => ht.not_closes)
        (fun t ht => ⟨hts t ht, ih t ht⟩) hts' (closes_cons (by decide) _)
        (closes_cons (by decide) _) (List.cons.inj hrest).2
      exact ⟨rfl, (List.cons.inj hend).2⟩
    | _ => simp [opening] at ho
  | pointer ht ih =>
    intro u hu x y hx hy h
    have ho : u.opening = "*" := same_opening ht.pointer hu hx hy h
    cases hu with
    | pointer hu => exact ih.prefixed (c := .pointer) (fun _ => rfl) hu hx hy h
    | base hb => simp [hb.opening_eq] at ho
    | _ => simp [opening] at ho
  | list ht ih =>
    intro u hu x y hx hy h
    have ho : u.opening = "[" := same_opening ht.list hu hx hy h
    cases hu with
    | list hu => exact ih.prefixed (c := .list) (fun _ => rfl) hu hx hy h
    | base hb => simp [hb.opening_eq] at ho
    | _ => simp [opening] at ho
  | map hk hv ihk ihv =>
    intro u hu x y hx hy h
    have ho : u.opening = "map" := same_opening (hk.map hv) hu hx hy h
    cases hu with
    | map hk' hv' =>
      simp only [text, String.toList_append, List.append_assoc] at h
      obtain ⟨rfl, hrest⟩ := ihk hk' (by simp [EndsType]) (by simp [EndsType])
        (List.append_cancel_left h)
      obtain ⟨rfl, hxy⟩ := ihv hv' hx hy (List.append_cancel_left hrest)
      exact ⟨rfl, hxy⟩
    | base hb => simp [hb.opening_eq] at ho
    | _ => simp [opening] at ho
  | both ht ih =>
    intro u hu x y hx hy h
    have ho : u.opening = "chan" := same_opening ht.both hu hx hy h
    cases hu with
    | both hu => exact ih.prefixed (c := .channel .both) (fun _ => rfl) hu hx hy h
    | send _ => simp [text] at h
    | base hb => simp [hb.opening_eq] at ho
    | _ => simp [opening] at ho
  | send ht ih =>
    intro u hu x y hx hy h
    have ho : u.opening = "chan" := same_opening ht.send hu hx hy h
    cases hu with
    | send hu => exact ih.prefixed (c := .channel .send) (fun _ => rfl) hu hx hy h
    | both _ => simp [text] at h
    | base hb => simp [hb.opening_eq] at ho
    | _ => simp [opening] at ho
  | receive ht ih =>
    intro u hu x y hx hy h
    have ho : u.opening = "<" := same_opening ht.receive hu hx hy h
    cases hu with
    | receive hu => exact ih.prefixed (c := .channel .receive) (fun _ => rfl) hu hx hy h
    | base hb => simp [hb.opening_eq] at ho
    | _ => simp [opening] at ho
  | @function ps rs hentries hts ih =>
    intro u hu x y hx hy h
    have ho : u.opening = "func" := same_opening (.function hentries hts) hu hx hy h
    cases hu with
    | function hentries' hts' =>
      simp only [text, String.toList_append, List.append_assoc] at h
      have hps : ∀ p ∈ ps ++ rs, p.Normal ∧ ReadsBack Parameter.text Parameter.Normal p :=
        fun p hp => have hnormal : p.Normal := ⟨hentries p hp, hts p hp⟩
          ⟨hnormal, hnormal.append_inj (ih p hp)⟩
      obtain ⟨rfl, rfl, hxy⟩ := signature_append_inj hps (fun p hp => ⟨hentries' p hp, hts' p hp⟩)
        hx hy (List.append_cancel_left h)
      exact ⟨rfl, hxy⟩
    | base hb => simp [hb.opening_eq] at ho
    | _ => simp [opening] at ho
  | struct =>
    intro u hu x y hx hy h
    have ho : u.opening = "struct" := same_opening .struct hu hx hy h
    cases hu with
    | struct => exact ⟨rfl, List.append_cancel_left h⟩
    | base hb => simp [hb.opening_eq] at ho
    | _ => simp [opening] at ho
  | interface =>
    intro u hu x y hx hy h
    have ho : u.opening = "interface" := same_opening .interface hu hx hy h
    cases hu with
    | interface => exact ⟨rfl, List.append_cancel_left h⟩
    | base hb => simp [hb.opening_eq] at ho
    | _ => simp [opening] at ho

/-! ## Signatures with the same entries -/

/-- The parameters of a method of an interface. -/
def Method.parameters : Method → List Parameter
  | .mk _ _ _ parameters _ => parameters

/-- The results of a method of an interface. -/
def Method.results : Method → List Parameter
  | .mk _ _ _ _ results => results

/-- A type whose names are words, in the methods of interfaces as well. -/
inductive TypeExpr.Lexed : TypeExpr → Prop
  | base {b : TypeExpr} : b.IsBase → Lexed b
  | generic {b : TypeExpr} {arguments : List TypeExpr} : b.IsBase → arguments ≠ [] →
      (∀ t ∈ arguments, Lexed t) → Lexed (.generic b arguments)
  | pointer {t : TypeExpr} : Lexed t → Lexed (.pointer t)
  | list {t : TypeExpr} : Lexed t → Lexed (.list t)
  | map {key value : TypeExpr} : Lexed key → Lexed value → Lexed (.map key value)
  | channel {direction : Direction} {t : TypeExpr} : Lexed t → Lexed (.channel direction t)
  | function {ps rs : List Parameter} : (∀ p ∈ ps ++ rs, p.NamesLexed) →
      (∀ p ∈ ps ++ rs, Lexed p.type) → Lexed (.function ps rs)
  | struct {fields : List Field} : Lexed (.struct fields)
  | interface {methods : List Method} :
      (∀ m ∈ methods, ∀ p ∈ m.parameters ++ m.results, p.NamesLexed) →
      (∀ m ∈ methods, ∀ p ∈ m.parameters ++ m.results, Lexed p.type) → Lexed (.interface methods)
  | parenthesized {t : TypeExpr} : Lexed t → Lexed (.parenthesized t)
  | verbatim {text : String} : Lexed (.verbatim text)

/-- Whether the names of a parameter and in its type are words. -/
def Parameter.Lexed (p : Parameter) : Prop := p.NamesLexed ∧ p.type.Lexed

theorem normal_sharedEntries {variadic : Bool} {type : TypeExpr} (ht : type.Normal) :
    ∀ {names : List String}, (∀ n ∈ names, IsTypeName n) →
      ∀ p ∈ sharedEntries variadic type names, p.Normal
  | [], hnames, p, hp => by
    rw [List.mem_singleton.1 hp]
    exact ⟨⟨hnames, Nat.zero_le 1⟩, ht⟩
  | [_], hnames, p, hp => by
    rw [List.mem_singleton.1 hp]
    exact ⟨⟨hnames, Nat.le_refl 1⟩, ht⟩
  | n :: m :: names, hnames, p, hp => by
    obtain ⟨hn, hnames⟩ := List.forall_mem_cons.1 hnames
    rcases List.mem_cons.1 hp with rfl | hp
    · exact ⟨⟨List.forall_mem_nil _, Nat.zero_le 1⟩, .base (.name hn)⟩
    · exact normal_sharedEntries ht hnames p hp

theorem normal_entries {ps : List Parameter} (hnames : ∀ p ∈ ps, p.NamesLexed)
    (htypes : ∀ p ∈ ps, p.type.shown.Normal) : ∀ p ∈ entries ps, p.Normal := by
  induction ps with
  | nil => simp [entries]
  | cons p ps ih =>
    obtain ⟨names, variadic, type⟩ := p
    obtain ⟨hn, hnames⟩ := List.forall_mem_cons.1 hnames
    obtain ⟨ht, htypes⟩ := List.forall_mem_cons.1 htypes
    rw [entries]
    exact List.forall_mem_append.2 ⟨normal_sharedEntries ht hn, ih hnames htypes⟩

theorem normal_entries_append {ps rs : List Parameter} (hnames : ∀ p ∈ ps ++ rs, p.NamesLexed)
    (htypes : ∀ p ∈ ps ++ rs, p.type.shown.Normal) : ∀ p ∈ entries ps ++ entries rs, p.Normal := by
  obtain ⟨hps, hrs⟩ := List.forall_mem_append.1 hnames
  obtain ⟨htps, htrs⟩ := List.forall_mem_append.1 htypes
  exact List.forall_mem_append.2 ⟨normal_entries hps htps, normal_entries hrs htrs⟩

theorem TypeExpr.IsBase.shown_eq {b : TypeExpr} (hb : b.IsBase) : b.shown = b := by
  cases hb <;> rfl

theorem TypeExpr.Lexed.normal_shown {t : TypeExpr} (ht : t.Lexed) :
    t.isPlain → t.shown.Normal := by
  induction ht with
  | base hb =>
    intro _
    rw [hb.shown_eq]
    exact .base hb
  | @generic b arguments hb hne _ ih =>
    intro h
    rw [isPlain, Bool.and_eq_true, plainTypes_iff] at h
    rw [shown, hb.shown_eq, shownTypes_eq_map]
    exact .generic hb (by simpa using hne)
      (List.forall_mem_map.2 fun t ht => ih t ht (h.2 t ht))
  | pointer _ ih => exact fun h => .pointer (ih h)
  | list _ ih => exact fun h => .list (ih h)
  | map _ _ ihk ihv =>
    intro h
    rw [isPlain, Bool.and_eq_true] at h
    exact .map (ihk h.1) (ihv h.2)
  | @channel direction _ _ ih =>
    intro h
    cases direction with
    | both => exact .both (ih h)
    | send => exact .send (ih h)
    | receive => exact .receive (ih h)
  | @function ps rs hnames _ ih =>
    intro h
    rw [isPlain, Bool.and_eq_true, plainParameters_iff, plainParameters_iff,
      ← List.forall_mem_append] at h
    have hnormal := normal_entries_append hnames fun p hp => ih p hp (h p hp)
    exact .function (fun p hp => (hnormal p hp).1) fun p hp => (hnormal p hp).2
  | struct => exact fun _ => .struct
  | interface => exact fun _ => .interface
  | parenthesized _ ih => exact ih
  | verbatim => exact nofun

/-- Signatures of plain parameters and results are the same just if they show the same entries. -/
theorem signature_eq_iff {ps rs ps' rs' : List Parameter} (h : ∀ p ∈ ps ++ rs, p.Lexed)
    (h' : ∀ p ∈ ps' ++ rs', p.Lexed) (hplain : plainParameters (ps ++ rs))
    (hplain' : plainParameters (ps' ++ rs')) :
    signature ps rs = signature ps' rs' ↔ entries ps = entries ps' ∧ entries rs = entries rs' := by
  have hnormal : ∀ {qs ss}, (∀ p ∈ qs ++ ss, p.Lexed) → plainParameters (qs ++ ss) →
      ∀ p ∈ entries qs ++ entries ss, p.Normal := fun h hplain =>
    normal_entries_append (fun p hp => (h p hp).1) fun p hp =>
      (h p hp).2.normal_shown (plainParameters_iff.1 hplain p hp)
  constructor
  · intro heq
    rw [← signature_entries ps rs, ← signature_entries ps' rs'] at heq
    have hread : ∀ p ∈ entries ps ++ entries rs,
        p.Normal ∧ ReadsBack Parameter.text Parameter.Normal p := fun p hp =>
      have hp := hnormal h hplain p hp
      ⟨hp, hp.append_inj hp.2.append_inj⟩
    obtain ⟨hps, hrs, -⟩ := signature_append_inj (x := []) (y := []) hread (hnormal h' hplain')
      nofun nofun (congrArg (·.toList ++ []) heq)
    exact ⟨hps, hrs⟩
  · rintro ⟨hps, hrs⟩
    rw [← signature_entries ps rs, ← signature_entries ps' rs', hps, hrs]

end Atlas.Golang
