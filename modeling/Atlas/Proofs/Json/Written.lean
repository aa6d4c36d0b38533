import Atlas.Proofs.Json.Numbers
import Mathlib.Data.List.DropRight

/-!
# Written JSON

A text in quotes is read as the text (`Json.exists_quoted?_quote`). Lists and records are read from
the lines for their items and members (`Json.readAs_list`, `Json.readAs_record`), as the reader
skips white space between them. So data is read from its text as the tree that shows it
(`Data.tree?_prettyJson`), if its numbers are read back. The integers that are read from a text are
in range (`Json.inRange_of_tree?`), and these are read back (`Json.readsBack_int`).
-/

set_option linter.unusedSectionVars false

namespace Atlas

/-! ## Trees of data -/

namespace Data

open Json

mutual

/-- The tree that shows the data. -/
def toTree : Data → Tree
  | .null => .null
  | .bool b => .bool b
  | .number n => .number (some n)
  | .text s => .text (some s)
  | .list ds => .list (itemsTree ds)
  | .record ms => .record (membersTree ms)

/-- The trees that show some items. -/
def itemsTree : List Data → List Tree
  | [] => []
  | d :: ds => toTree d :: itemsTree ds

/-- The trees that show some members. -/
def membersTree : List (String × Data) → List (Option String × Tree)
  | [] => []
  | (n, d) :: ms => (some n, toTree d) :: membersTree ms

end

theorem itemsTree_eq (ds : List Data) : itemsTree ds = ds.map toTree := by
  induction ds with
  | nil => rfl
  | cons d ds ih => rw [itemsTree, ih, List.map_cons]

theorem membersTree_eq (ms : List (String × Data)) :
    membersTree ms = ms.map fun m => (some m.1, m.2.toTree) := by
  induction ms with
  | nil => rfl
  | cons m ms ih => rw [membersTree, ih, List.map_cons]

theorem toTree_eq_null_iff {d : Data} : d.toTree = .null ↔ d = .null := by
  cases d <;> simp [toTree]

end Data

/-! ## Numbers in data -/

namespace Json

mutual

/-- The numbers in a tree. -/
def Tree.numbers : Tree → List Number
  | .number n => n.toList
  | .list ts => itemsNumbers ts
  | .record ms => membersNumbers ms
  | _ => []

/-- The numbers in some trees. -/
def itemsNumbers : List Tree → List Number
  | [] => []
  | t :: ts => t.numbers ++ itemsNumbers ts

/-- The numbers in some members. -/
def membersNumbers : List (Option String × Tree) → List Number
  | [] => []
  | (_, t) :: ms => t.numbers ++ membersNumbers ms

end

theorem Tree.mem_numbers_list {n : Number} {ts : List Tree} :
    n ∈ (Tree.list ts).numbers ↔ ∃ t ∈ ts, n ∈ t.numbers := by
  rw [numbers]
  induction ts with
  | nil => simp [itemsNumbers]
  | cons t ts ih => rw [itemsNumbers, List.mem_append, ih, List.exists_mem_cons_iff]

theorem Tree.mem_numbers_record {n : Number} {ms : List (Option String × Tree)} :
    n ∈ (Tree.record ms).numbers ↔ ∃ m ∈ ms, n ∈ m.2.numbers := by
  rw [numbers]
  induction ms with
  | nil => simp [membersNumbers]
  | cons m ms ih => rw [membersNumbers, List.mem_append, ih, List.exists_mem_cons_iff]

end Json

namespace Data

open Json

/-- The numbers in the data. -/
def numbers (d : Data) : List Number := d.toTree.numbers

theorem mem_numbers_list {n : Number} {ds : List Data} :
    n ∈ (Data.list ds).numbers ↔ ∃ d ∈ ds, n ∈ d.numbers := by
  simp [numbers, toTree, Tree.mem_numbers_list, itemsTree_eq]

theorem mem_numbers_record {n : Number} {ms : List (String × Data)} :
    n ∈ (Data.record ms).numbers ↔ ∃ m ∈ ms, n ∈ m.2.numbers := by
  simp [numbers, toTree, Tree.mem_numbers_record, membersTree_eq]

end Data

namespace Json

open Data

mutual

/-- Data is read from no tree but the one that shows it. -/
theorem eq_toTree_of_toData? : ∀ {depth : ℕ} (t : Tree) {d : Data}, t.toData? depth = some d →
    t = d.toTree
  | _, .null, _, h => by
    cases h
    rfl
  | _, .bool b, _, h => by
    cases h
    rfl
  | _, .number n, _, h => by
    obtain ⟨m, rfl, rfl⟩ := Option.map_eq_some_iff.1 h
    rfl
  | _, .text s, _, h => by
    obtain ⟨r, rfl, rfl⟩ := Option.map_eq_some_iff.1 h
    rfl
  | 0, .list ts, _, h => by cases h
  | _ + 1, .list ts, _, h => by
    obtain ⟨ds, hds, rfl⟩ := Option.map_eq_some_iff.1 h
    exact congrArg Tree.list (eq_itemsTree_of_dataItems? ts hds)
  | 0, .record ms, _, h => by cases h
  | _ + 1, .record ms, _, h => by
    obtain ⟨es, hes, rfl⟩ := Option.map_eq_some_iff.1 h
    exact congrArg Tree.record (eq_membersTree_of_dataMembers? ms hes)

theorem eq_itemsTree_of_dataItems? : ∀ {depth : ℕ} (ts : List Tree) {ds : List Data},
    dataItems? depth ts = some ds → ts = itemsTree ds
  | _, [], _, h => by
    cases h
    rfl
  | depth, t :: ts, _, h => by
    unfold dataItems? at h
    split at h
    · rename_i d ds hd hds
      cases h
      exact congrArg₂ List.cons (eq_toTree_of_toData? t hd) (eq_itemsTree_of_dataItems? ts hds)
    · cases h

theorem eq_membersTree_of_dataMembers? : ∀ {depth : ℕ} (ms : List (Option String × Tree))
    {es : List (String × Data)}, dataMembers? depth ms = some es → ms = membersTree es
  | _, [], _, h => by
    cases h
    rfl
  | depth, (name, t) :: ms, _, h => by
    unfold dataMembers? at h
    split at h
    · rename_i d es hd hes
      cases h
      exact congrArg₂ List.cons (congrArg (some _, ·) (eq_toTree_of_toData? t hd))
        (eq_membersTree_of_dataMembers? ms hes)
    · cases h

end

attribute [local instance (high)] instPowNat

/-! ## Quoted texts -/

theorem hexValue?_hexDigit {n : ℕ} (h : n < 16) : hexValue? (hexDigit n) = some n := by
  revert n
  decide

theorem hex4?_control {c : Char} (h : c.toNat < 32) (rest : List Char) :
    hex4? ('0' :: '0' :: hexDigit (c.toNat / 16) :: hexDigit (c.toNat % 16) :: rest) =
      some (c.toNat, rest) := by
  have hzero : hexValue? '0' = some 0 := rfl
  have hhigh := hexValue?_hexDigit (n := c.toNat / 16) (by omega)
  have hlow := hexValue?_hexDigit (n := c.toNat % 16) (by omega)
  simp only [hex4?, hzero, hhigh, hlow, Option.bind_eq_bind, Option.bind_some, Option.pure_def,
    Option.some.injEq, Prod.mk.injEq, and_true]
  omega

theorem unicodeEscape?_control {c : Char} (h : c.toNat < 32) (rest : List Char) :
    unicodeEscape? ('0' :: '0' :: hexDigit (c.toNat / 16) :: hexDigit (c.toNat % 16) :: rest) =
      some (some c, rest) := by
  rw [unicodeEscape?, hex4?_control h]
  have hlow : ¬(0xD800 ≤ c.toNat) := by omega
  have hhigh : ¬(0xDC00 ≤ c.toNat) := by omega
  simp [hlow, hhigh, Char.ofNat_toNat]

/-- A character is read from what is written for it. -/
theorem quoted?_escapeChar (fuel : ℕ) (acc : List Char) (c : Char) (rest : List Char) :
    quoted? (fuel + 1) (some acc) (escapeChar c ++ rest) = quoted? fuel (some (c :: acc)) rest := by
  unfold escapeChar
  split_ifs with hquote hslash hfeed hreturn htab hback hform hcontrol
  · rw [hquote]; rfl
  · rw [hslash]; rfl
  · rw [hfeed]; rfl
  · rw [hreturn]; rfl
  · rw [htab]; rfl
  · rw [← Char.ofNat_toNat c, hback]; rfl
  · rw [← Char.ofNat_toNat c, hform]; rfl
  · simp only [List.cons_append, List.nil_append, quoted?, unicodeEscape?_control hcontrol,
      Option.map_some]
  · rw [List.singleton_append, quoted?]
    · rw [if_neg (not_or_intro hcontrol hslash), Option.map_some]
    · exact hquote
    · exact fun _ h _ => hslash h
    · exact fun _ _ h _ => hslash h

/-- A text is read from what is written for it. -/
theorem quoted?_flatMap (acc cs rest : List Char) {fuel : ℕ} (h : cs.length < fuel) :
    quoted? fuel (some acc) (cs.flatMap escapeChar ++ '"' :: rest) =
      some (some (String.ofList (acc.reverse ++ cs)), rest) := by
  induction cs generalizing fuel acc with
  | nil =>
    obtain ⟨fuel, rfl⟩ := Nat.exists_eq_add_of_lt h
    simp [quoted?]
  | cons c cs ih =>
    obtain ⟨fuel, rfl⟩ := Nat.exists_eq_add_of_lt h
    rw [List.flatMap_cons, List.append_assoc, quoted?_escapeChar, ih]
    · simp
    · simp; omega

theorem length_le_flatMap_escapeChar (cs : List Char) :
    cs.length ≤ (cs.flatMap escapeChar).length := by
  have hpos : ∀ c, 1 ≤ (escapeChar c).length := fun c => by
    unfold escapeChar
    split_ifs <;> simp
  induction cs with
  | nil => exact Nat.le_refl _
  | cons c cs ih =>
    have hc := hpos c
    rw [List.flatMap_cons, List.length_append, List.length_cons]
    omega

/-- A text in quotes is read as the text. -/
theorem exists_quoted?_quote (s : String) (rest : List Char) :
    ∃ r, (quote s).toList ++ rest = '"' :: r ∧
      quoted? (r.length + 1) (some []) r = some (some s, rest) := by
  have hlength := length_le_flatMap_escapeChar s.toList
  refine ⟨s.toList.flatMap escapeChar ++ '"' :: rest, by simp [quote], ?_⟩
  rw [quoted?_flatMap [] s.toList rest (by rw [List.length_append]; omega)]
  simp

/-! ## Values -/

/-- Nothing but white space. -/
def IsSpaces (s : List Char) : Prop := ∀ c ∈ s, isSpace c = true

/-- The text, up to white space at its end, is read as the tree wherever it stands, if what follows
does not go on with a number. -/
def ReadAs (text : List Char) (t : Tree) : Prop :=
  ∃ blank, IsSpaces blank ∧ ∀ ⦃fuel : ℕ⦄ ⦃rest : List Char⦄, text.length ≤ fuel → EndsNumber rest →
    value? fuel (text ++ rest) = some (t, blank ++ rest)

/-- The text of a member is its name in quotes, and behind a colon the text of its value. -/
def MemberReadAs (text : List Char) (m : Option String × Tree) : Prop :=
  ∃ name value, m.1 = some name ∧ text = (quote name).toList ++ (':' :: ' ' :: value) ∧
    ReadAs value m.2

section Space

variable {sp s rest : List Char} {fuel : ℕ}

theorem skipSpace_skipSpace (s : List Char) : skipSpace (skipSpace s) = skipSpace s :=
  List.dropWhile_idempotent _ _

theorem IsSpaces.skipSpace_append (h : IsSpaces sp) (s : List Char) :
    skipSpace (sp ++ s) = skipSpace s :=
  List.dropWhile_append_of_pos h

theorem skipSpace_cons_of_not {c : Char} (h : isSpace c = false) (s : List Char) :
    skipSpace (c :: s) = c :: s :=
  List.dropWhile_cons_of_neg (by simp [h])

theorem value?_skipSpace (fuel : ℕ) (s : List Char) :
    value? fuel (skipSpace s) = value? fuel s := by
  cases fuel with
  | zero => rfl
  | succ fuel => simp only [value?, skipSpace_skipSpace]

theorem items?_skipSpace (fuel : ℕ) (acc : List Tree) (s : List Char) :
    items? fuel acc (skipSpace s) = items? fuel acc s := by
  cases fuel with
  | zero => rfl
  | succ fuel => simp only [items?, value?_skipSpace]

theorem members?_skipSpace (fuel : ℕ) (acc : List (Option String × Tree)) (s : List Char) :
    members? fuel acc (skipSpace s) = members? fuel acc s := by
  cases fuel with
  | zero => rfl
  | succ fuel => simp only [members?, skipSpace_skipSpace]

theorem IsSpaces.value?_append (h : IsSpaces sp) (fuel : ℕ) (s : List Char) :
    value? fuel (sp ++ s) = value? fuel s := by
  rw [← value?_skipSpace, h.skipSpace_append, value?_skipSpace]

theorem value?_blank (fuel : ℕ) (s : List Char) : value? fuel (' ' :: s) = value? fuel s := by
  have hblank : IsSpaces [' '] := by simp [IsSpaces, isSpace]
  exact hblank.value?_append fuel s

/-- White space in front of a bracket or a comma does not go on with a number. -/
theorem IsSpaces.endsNumber_append (h : IsSpaces sp) (hrest : EndsNumber rest) :
    EndsNumber (sp ++ rest) := by
  cases sp with
  | nil => exact hrest
  | cons c sp =>
    have hc : isSpace c = true := h c List.mem_cons_self
    refine EndsNumber.cons ⟨?_, ?_, ?_, ?_⟩
    · simp only [isSpace, Bool.or_eq_true, beq_iff_eq] at hc
      obtain ((rfl | rfl) | rfl) | rfl := hc <;> rfl
    all_goals
      rintro rfl
      cases hc

end Space

theorem value?_list {ts : List Tree} {s rest : List Char} {fuel : ℕ}
    (h : items? fuel [] s = some (ts, rest)) :
    value? (fuel + 1) ('[' :: s) = some (.list ts, rest) := by
  rw [← items?_skipSpace] at h
  -- no item starts with the closing bracket of an empty list
  have hne : ∀ r, skipSpace s ≠ ']' :: r := fun r hs => by
    rw [hs] at h
    cases fuel with
    | zero => cases h
    | succ fuel =>
      have hvalue : value? fuel (']' :: r) = none := by
        cases fuel <;> rfl
      simp [items?, hvalue] at h
  rw [value?, skipSpace_cons_of_not rfl]
  simp [h]

theorem value?_record {ms : List (Option String × Tree)} {s rest : List Char} {fuel : ℕ}
    (h : members? fuel [] s = some (ms, rest)) :
    value? (fuel + 1) ('\x7b' :: s) = some (.record ms, rest) := by
  rw [← members?_skipSpace] at h
  have hne : ∀ r, skipSpace s ≠ '\x7d' :: r := fun r hs => by
    rw [hs] at h
    cases fuel <;> cases h
  rw [value?, skipSpace_cons_of_not rfl]
  simp [h]

/-- A reader of parts goes on behind a comma and ends at its closing mark. -/
structure ReadsParts {α : Type} (run : ℕ → List α → List Char → Option (List α × List Char))
    (Reads : List Char → α → Prop) (close : Char) : Prop where
  noSpace : isSpace close = false
  ends : EndsNumber [close]
  skip : ∀ (fuel : ℕ) (acc : List α) (s : List Char), run fuel acc (skipSpace s) = run fuel acc s
  comma : ∀ {part r r' : List Char} {a : α} {fuel : ℕ}, Reads part a → part.length ≤ fuel →
    EndsNumber r → skipSpace r = ',' :: r' → ∀ acc : List α,
      run (fuel + 1) acc (part ++ r) = run fuel (a :: acc) r'
  last : ∀ {part r r' : List Char} {a : α} {fuel : ℕ}, Reads part a → part.length ≤ fuel →
    EndsNumber r → skipSpace r = close :: r' → ∀ acc : List α,
      run (fuel + 1) acc (part ++ r) = some ((a :: acc).reverse, r')

theorem readsParts_items : ReadsParts items? ReadAs ']' where
  noSpace := rfl
  ends := .cons (by decide)
  skip := items?_skipSpace
  comma hpart hfuel hends hr acc := by
    obtain ⟨blank, hblank, hread⟩ := hpart
    simp only [items?, hread hfuel hends, hblank.skipSpace_append, hr]
  last hpart hfuel hends hr acc := by
    obtain ⟨blank, hblank, hread⟩ := hpart
    simp only [items?, hread hfuel hends, hblank.skipSpace_append, hr]

/-- A member is read as its name up to the colon, and then as its value. -/
theorem MemberReadAs.exists_value {part r : List Char} {m : Option String × Tree}
    (h : MemberReadAs part m) {fuel : ℕ} (hfuel : part.length ≤ fuel) (hends : EndsNumber r) :
    ∃ q s blank, part ++ r = '"' :: q ∧ quoted? (q.length + 1) (some []) q = some (m.1, ':' :: s) ∧
      value? fuel s = some (m.2, blank ++ r) ∧ IsSpaces blank := by
  obtain ⟨name, value, hname, rfl, blank, hblank, hread⟩ := h
  simp only [List.length_append, List.length_cons] at hfuel
  obtain ⟨q, hq, hquoted⟩ := exists_quoted?_quote name (':' :: ' ' :: (value ++ r))
  refine ⟨q, ' ' :: (value ++ r), blank, by simpa using hq, by rw [hname, hquoted], ?_, hblank⟩
  rw [value?_blank, hread (by omega) hends]

theorem readsParts_members : ReadsParts members? MemberReadAs '\x7d' where
  noSpace := rfl
  ends := .cons (by decide)
  skip := members?_skipSpace
  comma hpart hfuel hends hr acc := by
    obtain ⟨q, s, blank, hq, hquoted, hvalue, hblank⟩ := hpart.exists_value hfuel hends
    rw [hq, members?, skipSpace_cons_of_not rfl]
    simp only [hquoted, skipSpace_cons_of_not (c := ':') rfl, hvalue, hblank.skipSpace_append, hr]
  last hpart hfuel hends hr acc := by
    obtain ⟨q, s, blank, hq, hquoted, hvalue, hblank⟩ := hpart.exists_value hfuel hends
    rw [hq, members?, skipSpace_cons_of_not rfl]
    simp only [hquoted, skipSpace_cons_of_not (c := ':') rfl, hvalue, hblank.skipSpace_append, hr]

namespace ReadsParts

variable {α : Type} {run : ℕ → List α → List Char → Option (List α × List Char)}
  {Reads : List Char → α → Prop} {close : Char} (h : ReadsParts run Reads close)
  {sp sp' : List Char} (hsp : IsSpaces sp) (hsp' : IsSpaces sp')

include h hsp

theorem append (fuel : ℕ) (acc : List α) (s : List Char) :
    run fuel acc (sp ++ s) = run fuel acc s := by
  rw [← h.skip, hsp.skipSpace_append, h.skip]

include hsp'

/-- Parts that are read one by one are read with commas between them. -/
theorem intercalate {parts : List (List Char)} {as : List α} (hparts : List.Forall₂ Reads parts as)
    (hne : parts ≠ []) (fuel : ℕ) (acc : List α) (rest : List Char)
    (hfuel : ((',' :: sp).intercalate parts).length < fuel) :
    run fuel acc (sp ++ ((',' :: sp).intercalate parts ++ (sp' ++ close :: rest))) =
      some (acc.reverse ++ as, rest) := by
  rw [h.append hsp]
  induction hparts generalizing acc fuel with
  | nil => exact absurd rfl hne
  | @cons part a parts as hpart hparts ih =>
    obtain ⟨fuel, rfl⟩ := Nat.exists_eq_succ_of_ne_zero (Nat.ne_zero_of_lt hfuel)
    cases parts with
    | nil =>
      cases hparts
      rw [List.intercalate_singleton] at hfuel ⊢
      rw [h.last hpart (by omega) (hsp'.endsNumber_append (.cons (h.ends close rfl)))
        ((hsp'.skipSpace_append _).trans (skipSpace_cons_of_not h.noSpace _))]
      simp
    | cons part' parts =>
      rw [List.intercalate_cons_cons] at hfuel ⊢
      simp only [List.length_append, List.length_cons] at hfuel
      simp only [List.append_assoc, List.cons_append]
      rw [h.comma hpart (by omega) (.cons (by decide)) (skipSpace_cons_of_not rfl _),
        h.append hsp, ih (List.cons_ne_nil _ _) _ _ (by omega)]
      simp

end ReadsParts

/-! ## Numbers that are read -/

mutual

/-- All numbers in a tree that is read are in range. -/
theorem inRange_of_value? : ∀ (fuel : ℕ) {s r : List Char} {t : Tree},
    value? fuel s = some (t, r) → ∀ n ∈ t.numbers, InRange n
  | 0, _, _, _, h => by cases h
  | fuel + 1, s, r, t, h => by
    -- the first character tells what is read
    rw [value?] at h
    split at h
    case h_1 => cases h
    case h_2 =>
      obtain ⟨_, -, h⟩ := Option.map_eq_some_iff.1 h
      cases h
      exact List.forall_mem_nil _
    case h_3 =>
      split at h
      · cases h
        exact List.forall_mem_nil _
      · obtain ⟨⟨ts, r⟩, hts, h⟩ := Option.map_eq_some_iff.1 h
        cases h
        intro n hn
        obtain ⟨t, ht, hn⟩ := Tree.mem_numbers_list.1 hn
        exact inRange_of_items? fuel hts (List.forall_mem_nil _) t ht n hn
    case h_4 =>
      split at h
      · cases h
        exact List.forall_mem_nil _
      · obtain ⟨⟨ms, r⟩, hms, h⟩ := Option.map_eq_some_iff.1 h
        cases h
        intro n hn
        obtain ⟨m, hm, hn⟩ := Tree.mem_numbers_record.1 hn
        exact inRange_of_members? fuel hms (List.forall_mem_nil _) m hm n hn
    case h_5 | h_9 =>
      obtain ⟨⟨v, r⟩, hv, h⟩ := Option.map_eq_some_iff.1 h
      cases h
      exact fun n hn => inRange_of_number? hv n (Option.mem_toList.1 hn)
    all_goals
      unfold keyword? at h
      split_ifs at h
      cases h
      exact List.forall_mem_nil _

theorem inRange_of_items? : ∀ (fuel : ℕ) {s r : List Char} {acc ts : List Tree},
    items? fuel acc s = some (ts, r) → (∀ t ∈ acc, ∀ n ∈ t.numbers, InRange n) →
      ∀ t ∈ ts, ∀ n ∈ t.numbers, InRange n
  | 0, _, _, _, _, h, _ => by cases h
  | fuel + 1, s, r, acc, ts, h, hacc => by
    rw [items?] at h
    split at h
    · cases h
    · rename_i t r ht
      have hall := List.forall_mem_cons.2 ⟨inRange_of_value? fuel ht, hacc⟩
      split at h
      · exact inRange_of_items? fuel h hall
      · cases h
        exact fun t ht => hall t (List.mem_reverse.1 ht)
      · cases h

theorem inRange_of_members? : ∀ (fuel : ℕ) {s r : List Char}
    {acc ms : List (Option String × Tree)}, members? fuel acc s = some (ms, r) →
      (∀ m ∈ acc, ∀ n ∈ m.2.numbers, InRange n) → ∀ m ∈ ms, ∀ n ∈ m.2.numbers, InRange n
  | 0, _, _, _, _, h, _ => by cases h
  | fuel + 1, s, r, acc, ms, h, hacc => by
    rw [members?] at h
    split at h
    · split at h
      · cases h
      · rename_i name _ _
        split at h
        · split at h
          · cases h
          · rename_i t _ ht
            have hall : ∀ m ∈ (name, t) :: acc, ∀ n ∈ m.2.numbers, InRange n :=
              List.forall_mem_cons.2 ⟨inRange_of_value? fuel ht, hacc⟩
            split at h
            · exact inRange_of_members? fuel h hall
            · cases h
              exact fun m hm => hall m (List.mem_reverse.1 hm)
            · cases h
        · cases h
    · cases h

end

/-- All numbers in the tree of a text are in range. -/
theorem inRange_of_tree? {text : String} {t : Tree} (h : tree? text = some t) :
    ∀ n ∈ t.numbers, InRange n := by
  obtain ⟨⟨t, r⟩, hvalue, h⟩ := Option.bind_eq_some_iff.1 h
  dsimp only at h
  split_ifs at h
  cases h
  exact inRange_of_value? _ hvalue

/-! ## Plain data -/

/-- The text of the number is read as the number. -/
def ReadsBack (n : Number) : Prop := read? (numberText n) = some (.number n)

instance : DecidablePred ReadsBack := fun n =>
  decidable_of_iff ((match read? (numberText n) with
    | some (.number m) => decide (m = n)
    | _ => false) = true) (by
    unfold ReadsBack
    split
    · rename_i m hm
      rw [hm, decide_eq_true_iff, Option.some.injEq, Data.number.injEq]
    · rename_i hne
      exact iff_of_false (by decide) (hne n))

theorem isSpace_of_isDigit {c : Char} (h : isDigit c = true) : isSpace c = false := by
  refine Bool.eq_false_iff.2 fun hspace => ?_
  simp only [isSpace, Bool.or_eq_true, beq_iff_eq] at hspace
  obtain ((rfl | rfl) | rfl) | rfl := hspace <;> cases h

/-- Digits are read as a number. -/
theorem value?_of_isDigit {c : Char} (h : isDigit c = true) (fuel : ℕ) (s : List Char) :
    value? (fuel + 1) (c :: s) =
      (number? false (c :: s)).map fun p => (Tree.number p.1, p.2) := by
  rw [value?, skipSpace_cons_of_not (isSpace_of_isDigit h)]
  split <;> rename_i heq <;> cases heq <;> first | rfl | cases h

theorem value?_minus (fuel : ℕ) (s : List Char) : value? (fuel + 1) ('-' :: s) =
    (number? true s).map fun p => (Tree.number p.1, p.2) :=
  rfl

theorem readsBack_of_value? {n : Number}
    (h : ∀ fuel, value? (fuel + 1) (numberText n).toList = some (.number (some n), [])) :
    ReadsBack n := by
  have htree : tree? (numberText n) = some (.number (some n)) := by
    rw [tree?]
    exact congrArg (Option.bind · _) (h _)
  rw [ReadsBack, read?, htree]
  rfl

/-- An integer that is in range is read back. -/
theorem readsBack_int {i : ℤ} (h : InRange (.int i)) : ReadsBack (.int i) := by
  refine readsBack_of_value? fun fuel => ?_
  cases i with
  | ofNat n =>
    have htext : (numberText (.int (Int.ofNat n))).toList = Nat.toDigits 10 n := by
      change n.repr.toList = _
      simp
    have hn : n ≤ maxInt := Int.ofNat_le.1 h.2
    obtain ⟨c, cs, hcs⟩ := List.exists_cons_of_ne_nil (@Nat.toDigits_ne_nil n 10)
    have hc : isDigit c = true := isDigit_of_mem_toDigits (hcs ▸ List.mem_cons_self)
    rw [htext, hcs, value?_of_isDigit hc, ← hcs, number?_toDigits, numberOf_toDigits hn]
    rfl
  | negSucc n =>
    have htext : (numberText (.int (Int.negSucc n))).toList = '-' :: Nat.toDigits 10 (n + 1) := by
      change ("-" ++ (n + 1).repr).toList = _
      simp
    have hn : n + 1 ≤ 2 ^ (63 : Nat) := by
      have := h.1
      omega
    rw [htext, value?_minus, number?_toDigits, numberOf_toDigits_neg (Nat.succ_pos n) hn]
    rfl

theorem readAs_of_forall {text : List Char} {t : Tree} (hne : text ≠ [])
    (h : ∀ fuel rest, text.length ≤ fuel + 1 → value? (fuel + 1) (text ++ rest) = some (t, rest)) :
    ReadAs text t := by
  refine ⟨[], nofun, fun fuel rest hfuel _ => ?_⟩
  cases fuel with
  | zero => exact absurd (List.length_eq_zero_iff.1 (Nat.le_zero.1 hfuel)) hne
  | succ fuel => exact h fuel rest hfuel

theorem readAs_null : ReadAs "null".toList .null :=
  readAs_of_forall (by decide) fun _ _ _ => rfl

theorem readAs_true : ReadAs "true".toList (.bool true) :=
  readAs_of_forall (by decide) fun _ _ _ => rfl

theorem readAs_false : ReadAs "false".toList (.bool false) :=
  readAs_of_forall (by decide) fun _ _ _ => rfl

theorem readAs_quote (s : String) : ReadAs (quote s).toList (.text (some s)) := by
  refine readAs_of_forall (by simp [quote]) fun fuel rest _ => ?_
  obtain ⟨r, hr, hquoted⟩ := exists_quoted?_quote s rest
  rw [hr, value?, skipSpace_cons_of_not rfl]
  simp only [hquoted, Option.map_some]

theorem readAs_emptyList : ReadAs "[]".toList (.list []) :=
  readAs_of_forall (by decide) fun _ _ _ => rfl

theorem readAs_emptyRecord : ReadAs "\x7b\x7d".toList (.record []) :=
  readAs_of_forall (by decide) fun _ _ _ => rfl

theorem readAs_list {sp sp' : List Char} (hsp : IsSpaces sp) (hsp' : IsSpaces sp')
    {parts : List (List Char)} {ts : List Tree} (h : List.Forall₂ ReadAs parts ts)
    (hne : parts ≠ []) :
    ReadAs ('[' :: (sp ++ ((',' :: sp).intercalate parts ++ (sp' ++ [']'])))) (.list ts) := by
  refine readAs_of_forall (List.cons_ne_nil _ _) fun fuel rest hfuel => ?_
  simp only [List.length_cons, List.length_append] at hfuel
  have hitems := readsParts_items.intercalate hsp hsp' h hne fuel [] rest (by omega)
  simpa using value?_list hitems

theorem readAs_record {sp sp' : List Char} (hsp : IsSpaces sp) (hsp' : IsSpaces sp')
    {parts : List (List Char)} {ms : List (Option String × Tree)}
    (h : List.Forall₂ MemberReadAs parts ms) (hne : parts ≠ []) :
    ReadAs ('\x7b' :: (sp ++ ((',' :: sp).intercalate parts ++ (sp' ++ ['\x7d']))))
      (.record ms) := by
  refine readAs_of_forall (List.cons_ne_nil _ _) fun fuel rest hfuel => ?_
  simp only [List.length_cons, List.length_append] at hfuel
  have hmembers := readsParts_members.intercalate hsp hsp' h hne fuel [] rest (by omega)
  simpa using value?_record hmembers

theorem skipSpace_append_of_ne_nil {s : List Char} (h : skipSpace s ≠ []) (rest : List Char) :
    skipSpace (s ++ rest) = skipSpace s ++ rest := by
  simp only [skipSpace] at h ⊢
  rw [List.dropWhile_append, if_neg (by simpa using h)]

/-- A number that is read at the start of a text is read whatever follows. -/
theorem value?_append_of_number {v : Option Number} {s r rest : List Char} {fuel : ℕ}
    (h : value? (fuel + 1) s = some (.number v, r)) (hrest : EndsNumber rest) (fuel' : ℕ) :
    value? (fuel' + 1) (s ++ rest) = some (.number v, r ++ rest) := by
  have hne : skipSpace s ≠ [] := fun hs => by
    rw [value?, hs] at h
    cases h
  have hskip := skipSpace_append_of_ne_nil hne rest
  rw [value?] at h ⊢
  rw [hskip]
  have hmap : ∀ {x : Option (Option Number × List Char)} {t : List Char},
      (x.map fun p => (Tree.number p.1, p.2)) = some (.number v, t) → x = some (v, t) := by
    rintro _ _ hx
    obtain ⟨⟨n, t⟩, rfl, hn⟩ := Option.map_eq_some_iff.1 hx
    cases hn
    rfl
  generalize skipSpace s = cs at h
  split at h
  case h_1 => cases h
  case h_2 =>
    obtain ⟨_, -, hn⟩ := Option.map_eq_some_iff.1 h
    cases hn
  case h_3 =>
    split at h
    · cases h
    · obtain ⟨_, -, hn⟩ := Option.map_eq_some_iff.1 h
      cases hn
  case h_4 =>
    split at h
    · cases h
    · obtain ⟨_, -, hn⟩ := Option.map_eq_some_iff.1 h
      cases hn
  case h_5 =>
    simp only [List.cons_append, number?_append hrest (hmap h), Option.map_some]
  case h_9 =>
    have happend := number?_append hrest (hmap h)
    simp only [List.cons_append] at happend ⊢
    simp only [happend, Option.map_some]
  all_goals
    unfold keyword? at h
    split_ifs at h
    cases h

theorem readAs_number {n : Number} (h : ReadsBack n) :
    ReadAs (numberText n).toList (.number (some n)) := by
  obtain ⟨t, ht, hn⟩ := Option.bind_eq_some_iff.1 h
  obtain rfl := eq_toTree_of_toData? t hn
  unfold tree? at ht
  obtain ⟨⟨t, blank⟩, hvalue, hblank⟩ := Option.bind_eq_some_iff.1 ht
  dsimp only at hblank
  split_ifs at hblank with hspace
  cases hblank
  refine ⟨blank, List.dropWhile_eq_nil_iff.1 hspace, fun fuel rest hfuel hrest => ?_⟩
  cases fuel with
  | zero =>
    rw [List.length_eq_zero_iff.1 (Nat.le_zero.1 hfuel)] at hvalue
    cases hvalue
  | succ fuel => exact value?_append_of_number hvalue hrest fuel

end Json

namespace Data

open Json

theorem isSpaces_indent (depth : ℕ) :
    IsSpaces ("\n" ++ Text.repeated depth "  ").toList := by
  rw [String.toList_append, Text.toList_repeated]
  intro c hc
  rcases List.mem_append.1 hc with hc | hc
  · rw [List.mem_singleton.1 hc]
    rfl
  · obtain ⟨cs, hcs, hc⟩ := List.mem_flatten.1 hc
    rw [List.eq_of_mem_replicate hcs] at hc
    have hblank : "  ".toList.all isSpace = true := by decide
    exact List.all_eq_true.1 hblank c hc

theorem toList_bracketed (depth : ℕ) (left right : String) {parts : List String}
    (hne : parts ≠ []) : (bracketed depth left right parts).toList =
      left.toList ++ (("\n" ++ Text.repeated (depth + 1) "  ").toList ++
        ((',' :: ("\n" ++ Text.repeated (depth + 1) "  ").toList).intercalate
          (parts.map String.toList) ++
          (("\n" ++ Text.repeated depth "  ").toList ++ right.toList))) := by
  rw [bracketed, if_neg (by simpa using hne)]
  simp [String.toList_intercalate]

/-- The items of a list are read from the lines for them. -/
theorem readAs_bracketed_list {depth : ℕ} {parts : List String} {ts : List Tree}
    (h : List.Forall₂ ReadAs (parts.map String.toList) ts) :
    ReadAs (bracketed depth "[" "]" parts).toList (.list ts) := by
  cases parts with
  | nil =>
    cases h
    exact readAs_emptyList
  | cons part parts =>
    rw [toList_bracketed _ _ _ (List.cons_ne_nil _ _)]
    exact readAs_list (isSpaces_indent _) (isSpaces_indent _) h (List.cons_ne_nil _ _)

/-- The members of a record are read from the lines for them. -/
theorem readAs_bracketed_record {depth : ℕ} {parts : List String}
    {ms : List (Option String × Tree)}
    (h : List.Forall₂ MemberReadAs (parts.map String.toList) ms) :
    ReadAs (bracketed depth "\x7b" "\x7d" parts).toList (.record ms) := by
  cases parts with
  | nil =>
    cases h
    exact readAs_emptyRecord
  | cons part parts =>
    rw [toList_bracketed _ _ _ (List.cons_ne_nil _ _)]
    exact readAs_record (isSpaces_indent _) (isSpaces_indent _) h (List.cons_ne_nil _ _)

mutual

/-- Data is read from its text. -/
theorem readAs_prettyJson (depth : ℕ) :
    ∀ d : Data, (∀ n ∈ d.numbers, ReadsBack n) → ReadAs (prettyJson depth d).toList d.toTree
  | .null, _ => readAs_null
  | .bool true, _ => readAs_true
  | .bool false, _ => readAs_false
  | .number n, h => readAs_number (h n List.mem_cons_self)
  | .text s, _ => readAs_quote s
  | .list ds, h => readAs_bracketed_list (readAs_prettyItems (depth + 1) ds h)
  | .record ms, h => readAs_bracketed_record (readAs_prettyMembers (depth + 1) ms h)

theorem readAs_prettyItems (depth : ℕ) : ∀ ds : List Data,
    (∀ n ∈ itemsNumbers (itemsTree ds), ReadsBack n) →
    List.Forall₂ ReadAs ((prettyItems depth ds).map String.toList) (itemsTree ds)
  | [], _ => .nil
  | d :: ds, h => by
    rw [itemsTree, itemsNumbers, List.forall_mem_append] at h
    exact .cons (readAs_prettyJson depth d h.1) (readAs_prettyItems depth ds h.2)

theorem readAs_prettyMembers (depth : ℕ) : ∀ ms : List (String × Data),
    (∀ n ∈ membersNumbers (membersTree ms), ReadsBack n) →
    List.Forall₂ MemberReadAs ((prettyMembers depth ms).map String.toList) (membersTree ms)
  | [], _ => .nil
  | (name, d) :: ms, h => by
    rw [membersTree, membersNumbers, List.forall_mem_append] at h
    refine .cons ⟨name, _, rfl, ?_, readAs_prettyJson depth d h.1⟩
      (readAs_prettyMembers depth ms h.2)
    simp

end

/-- The text of data is read as the tree that shows it, if its numbers are read back. -/
theorem tree?_prettyJson (depth : ℕ) {d : Data} (h : ∀ n ∈ d.numbers, ReadsBack n) :
    tree? (prettyJson depth d) = some d.toTree := by
  obtain ⟨blank, hblank, hread⟩ := readAs_prettyJson depth d h
  have hvalue := @hread ((prettyJson depth d).toList.length + 1) [] (Nat.le_succ _) .nil
  rw [List.append_nil, List.append_nil] at hvalue
  have hskip : skipSpace blank = [] := List.dropWhile_eq_nil_iff.2 hblank
  simp [tree?, hvalue, hskip]

end Data

end Atlas
