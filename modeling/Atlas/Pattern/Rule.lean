import Atlas.Pattern.Reader

/-!
# Rules

A rule folds the matches of one pattern in a text into a record; a rule set is a list of rules,
applied to the whole text one after another. A rule whose pattern does not match leaves the record
as it is (`Rule.apply_of_matchesIn_eq_nil`), and what no rule of a set changes stays as it is
(`RuleSet.apply_keeps`).
-/

namespace Atlas

/-- The pattern of a text; a text that is no pattern matches nowhere. -/
def Pattern.ofText (text : String) : Pattern := (Pattern.read? text).getD (.one .nothing)

/-- A pattern, and what each match of it does to a record. -/
structure Rule (α : Type) where
  name : String
  pattern : Pattern
  /-- Whether the rule applies to every match and not to the first one only. -/
  everywhere : Bool
  update : Pattern.Match → α → α

namespace Rule

variable {α : Type}

/-- A rule for the first match of a pattern. -/
def first (name pattern : String) (update : Pattern.Match → α → α) : Rule α :=
  ⟨name, .ofText pattern, false, update⟩

/-- A rule for every match of a pattern. -/
def each (name pattern : String) (update : Pattern.Match → α → α) : Rule α :=
  ⟨name, .ofText pattern, true, update⟩

@[simp] theorem update_first (name pattern : String) (update : Pattern.Match → α → α) :
    (first name pattern update).update = update :=
  rfl

@[simp] theorem update_each (name pattern : String) (update : Pattern.Match → α → α) :
    (each name pattern update).update = update :=
  rfl

/-- The matches the rule applies to. -/
def matchesIn (r : Rule α) (text : String) : List Pattern.Match :=
  if r.everywhere then r.pattern.findAll text.toList else (r.pattern.find? text.toList).toList

/-- The record with every match folded in, and how many there were. -/
def apply (r : Rule α) (text : String) (a : α) : α × Nat :=
  let ms := r.matchesIn text
  (ms.foldl (fun a m => r.update m a) a, ms.length)

theorem apply_of_matchesIn_eq_nil {r : Rule α} {text : String} (h : r.matchesIn text = [])
    (a : α) : r.apply text a = (a, 0) := by
  simp [apply, h]

end Rule

/-- Rules to be applied in order. -/
abbrev RuleSet (α : Type) := List (Rule α)

namespace RuleSet

variable {α : Type}

/-- The record after every rule. -/
def apply (rs : RuleSet α) (text : String) (a : α) : α :=
  rs.foldl (fun a r => (r.apply text a).1) a

/-- What no update of a rule changes is as it was before. -/
theorem apply_keeps {β : Type} {f : α → β} {rs : RuleSet α}
    (h : ∀ r ∈ rs, ∀ m a, f (r.update m a) = f a) (text : String) (a : α) :
    f (rs.apply text a) = f a := by
  have hrule : ∀ r ∈ rs, ∀ a, f (r.apply text a).1 = f a := by
    intro r hr a
    rw [Rule.apply]
    induction r.matchesIn text generalizing a with
    | nil => rfl
    | cons m ms ih => exact (ih (r.update m a)).trans (h r hr m a)
  unfold apply
  induction rs generalizing a with
  | nil => rfl
  | cons r rs ih =>
    rw [List.foldl_cons, ih (fun r' hr' => h r' (.tail r hr')) (r.apply text a).1
      fun r' hr' => hrule r' (.tail r hr')]
    exact hrule r (.head rs) a

/-- The rule of a name. -/
def rule? (rs : RuleSet α) (name : String) : Option (Rule α) := rs.find? (·.name == name)

end RuleSet

end Atlas
