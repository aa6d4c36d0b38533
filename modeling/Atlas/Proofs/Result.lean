import Atlas.Error
import Mathlib.Data.List.Basic

/-!
# Computations that may fail

A computation that may fail is taken apart at the values of its steps (`bind_eq_ok_iff`). Where only
its value matters and not the error, its steps are those of an optional value (`toOption_bind`,
`toOption_mapM`), and a step that fails for one entry of a list leaves nothing of the list
(`mapM_ite_none`).
-/

namespace Atlas

variable {ε α β : Type}

theorem bind_eq_ok_iff {x : Except ε α} {f : α → Except ε β} {b : β} :
    x >>= f = .ok b ↔ ∃ a, x = .ok a ∧ f a = .ok b := by
  cases x <;> simp [bind, Except.bind]

@[simp] theorem toOption_pure (a : α) : (pure a : Except ε α).toOption = some a :=
  rfl

@[simp] theorem toOption_bind (x : Except ε α) (f : α → Except ε β) :
    (x >>= f).toOption = x.toOption.bind fun a => (f a).toOption := by
  cases x <;> rfl

theorem toOption_eq_some_iff {x : Except ε α} {a : α} : x.toOption = some a ↔ x = .ok a := by
  cases x <;> simp [Except.toOption]

theorem toOption_mapM (f : α → Except ε β) (l : List α) :
    (l.mapM f).toOption = l.mapM fun a => (f a).toOption := by
  induction l with
  | nil => rfl
  | cons a l ih =>
    simp only [List.mapM_cons, toOption_bind, toOption_pure, ih]
    rfl

/-- Entries of which one has no value have none together. -/
theorem mapM_ite_none (p : α → Prop) [DecidablePred p] (f : α → Option β) (l : List α) :
    (l.mapM fun a => if p a then none else f a) = if ∃ a ∈ l, p a then none else l.mapM f := by
  induction l with
  | nil => simp
  | cons a l ih =>
    rw [List.mapM_cons, ih]
    by_cases ha : p a
    · simp [ha]
    · by_cases hl : ∃ b ∈ l, p b <;> simp [ha, hl, List.mapM_cons]

end Atlas
