import Atlas.Golang.Document
import Mathlib.Data.List.Basic

/-!
# What signatures show

A signature is a text, in which parentheses around a type, the lengths of arrays and the bodies of
structs and interfaces are missing. `TypeExpr.shown` is a type without these, and `entries` are
parameters divided at the commas, a name that shares the type after it being an entry of its own.
Neither changes a text (`TypeExpr.text_shown`, `signature_entries`).
-/

set_option linter.unusedSectionVars false

namespace Atlas.Golang

/-! ## What is shown of a type -/

/-- The entries of parameters that share a type. -/
def sharedEntries (variadic : Bool) (type : TypeExpr) : List String → List Parameter
  | [] => [.mk [] variadic type]
  | [name] => [.mk [name] variadic type]
  | name :: next :: names =>
    .mk [] false (.name name) :: sharedEntries variadic type (next :: names)

mutual

/-- A type without parentheses, lengths and bodies. -/
def TypeExpr.shown : TypeExpr → TypeExpr
  | .name n => .name n
  | .qualified p n => .qualified p n
  | .generic base arguments => .generic base.shown (shownTypes arguments)
  | .pointer target => .pointer target.shown
  | .list element => .list element.shown
  | .map key value => .map key.shown value.shown
  | .channel direction element => .channel direction element.shown
  | .function parameters results => .function (entries parameters) (entries results)
  | .struct _ => .struct []
  | .interface _ => .interface []
  | .parenthesized inner => inner.shown
  | .verbatim text => .verbatim text

/-- The types without parentheses, lengths and bodies. -/
def shownTypes : List TypeExpr → List TypeExpr
  | [] => []
  | t :: ts => t.shown :: shownTypes ts

/-- The entries of parameters or results, between their commas. -/
def entries : List Parameter → List Parameter
  | [] => []
  | .mk names variadic type :: ps => sharedEntries variadic type.shown names ++ entries ps

end

mutual

/-- Whether no comment, approximation or union stands in place of a type, bodies of structs and
interfaces aside. -/
def TypeExpr.isPlain : TypeExpr → Bool
  | .name _ | .qualified _ _ | .struct _ | .interface _ => true
  | .generic base arguments => base.isPlain && plainTypes arguments
  | .pointer t | .list t | .channel _ t | .parenthesized t => t.isPlain
  | .map key value => key.isPlain && value.isPlain
  | .function parameters results => plainParameters parameters && plainParameters results
  | .verbatim _ => false

/-- Whether types are plain. -/
def plainTypes : List TypeExpr → Bool
  | [] => true
  | t :: ts => t.isPlain && plainTypes ts

/-- Whether the types of parameters are plain. -/
def plainParameters : List Parameter → Bool
  | [] => true
  | .mk _ _ type :: ps => type.isPlain && plainParameters ps

end

/-- The names of parameters of one type. -/
def Parameter.names : Parameter → List String
  | .mk names _ _ => names

/-- The type of parameters. -/
def Parameter.type : Parameter → TypeExpr
  | .mk _ _ type => type

theorem shownTypes_eq_map (ts : List TypeExpr) : shownTypes ts = ts.map TypeExpr.shown := by
  induction ts with
  | nil => rfl
  | cons t ts ih => simp [shownTypes, ih]

theorem plainTypes_iff {ts : List TypeExpr} : plainTypes ts ↔ ∀ t ∈ ts, t.isPlain := by
  induction ts with
  | nil => simp [plainTypes]
  | cons t ts ih => simp [plainTypes, ih]

theorem plainParameters_iff {ps : List Parameter} :
    plainParameters ps ↔ ∀ p ∈ ps, p.type.isPlain := by
  induction ps with
  | nil => simp [plainParameters]
  | cons p ps ih => cases p; simp [plainParameters, Parameter.type, ih]

theorem sharedEntries_ne_nil (variadic : Bool) (type : TypeExpr) (names : List String) :
    sharedEntries variadic type names ≠ [] := by
  unfold sharedEntries
  split <;> simp

/-! ## The texts stay the same -/

theorem parameterTexts_append (ps qs : List Parameter) :
    parameterTexts (ps ++ qs) = parameterTexts ps ++ parameterTexts qs := by
  simp only [parameterTexts_eq_map, List.map_append]

theorem parameterTexts_ne_nil {ps : List Parameter} (h : ps ≠ []) : parameterTexts ps ≠ [] := by
  rwa [parameterTexts_eq_map, ne_eq, List.map_eq_nil_iff]

theorem intercalate_sharedEntries (variadic : Bool) (type : TypeExpr) (names : List String) :
    ", ".intercalate (parameterTexts (sharedEntries variadic type names)) =
      (Parameter.mk names variadic type).text := by
  induction names with
  | nil => simp [sharedEntries, parameterTexts]
  | cons name names ih =>
    cases names with
    | nil => simp [sharedEntries, parameterTexts]
    | cons next names =>
      rw [sharedEntries, parameterTexts, String.intercalate_cons_of_ne_nil
        (parameterTexts_ne_nil (sharedEntries_ne_nil _ _ _)), ih]
      simp [Parameter.text, TypeExpr.text, String.append_assoc]

mutual

theorem TypeExpr.text_shown : ∀ t : TypeExpr, t.shown.text = t.text
  | .name _ | .qualified _ _ | .struct _ | .interface _ | .verbatim _ => rfl
  | .generic base arguments => by
    rw [TypeExpr.shown, TypeExpr.text, TypeExpr.text, base.text_shown, typeTexts_shownTypes]
  | .pointer t | .list t => by rw [TypeExpr.shown, TypeExpr.text, TypeExpr.text, t.text_shown]
  | .map key value => by
    rw [TypeExpr.shown, TypeExpr.text, TypeExpr.text, key.text_shown, value.text_shown]
  | .channel direction t => by
    cases direction <;> rw [TypeExpr.shown, TypeExpr.text, TypeExpr.text, t.text_shown]
  | .parenthesized t => by rw [TypeExpr.shown, TypeExpr.text, t.text_shown]
  | .function ps rs => by
    rw [TypeExpr.shown, TypeExpr.text, TypeExpr.text, signatureText, signatureText,
      intercalate_entries, intercalate_entries]

theorem typeTexts_shownTypes : ∀ ts : List TypeExpr, typeTexts (shownTypes ts) = typeTexts ts
  | [] => rfl
  | t :: ts => by rw [shownTypes, typeTexts, typeTexts, t.text_shown, typeTexts_shownTypes ts]

theorem intercalate_entries : ∀ ps : List Parameter,
    ", ".intercalate (parameterTexts (entries ps)) = ", ".intercalate (parameterTexts ps)
  | [] => rfl
  | .mk names variadic type :: ps => by
    have hp : ", ".intercalate (parameterTexts (sharedEntries variadic type.shown names)) =
        (Parameter.mk names variadic type).text := by
      rw [intercalate_sharedEntries, Parameter.text, Parameter.text, type.text_shown]
    rw [entries, parameterTexts_append, parameterTexts]
    rcases eq_or_ne ps [] with rfl | hps
    · rw [entries, parameterTexts, List.append_nil, hp, String.intercalate_singleton]
    · have hes : entries ps ≠ [] := by
        obtain ⟨⟨names, variadic, type⟩, qs, rfl⟩ := List.exists_cons_of_ne_nil hps
        rw [entries]
        exact List.append_ne_nil_of_left_ne_nil (sharedEntries_ne_nil _ _ _) _
      rw [String.intercalate_append_of_ne_nil (parameterTexts_ne_nil (sharedEntries_ne_nil _ _ _))
          (parameterTexts_ne_nil hes), hp, intercalate_entries ps,
        String.intercalate_cons_of_ne_nil (parameterTexts_ne_nil hps)]

end

theorem signature_entries (ps rs : List Parameter) :
    signature (entries ps) (entries rs) = signature ps rs := by
  rw [signature, signature, signatureText, signatureText, intercalate_entries, intercalate_entries]

end Atlas.Golang
