import Atlas.Proofs.Nextjs.Calls
import Mathlib.Data.List.Forall2

/-!
# Segments of routes

A segment of a route is written as the text itself, `[name]`, `[...name]` or `[[...name]]`, and the
way it is written says which called segments it takes (`Takes`). A path fits a route if its segments
can be cut into one part for each segment of the route, taken by that (`Fits`).

The reading of a path stops at the first catch-all, so a route is called just by the paths that fit
its segments up to there (`segmentsMatch_iff_fits`). These are all of its segments if no other one
than the last is a catch-all (`Api.isCalledBy_iff_fits`).
-/

set_option linter.unusedSectionVars false

namespace Atlas.Nextjs

/-! ## Ways to write a segment -/

/-- The segment is written `[name]`. -/
def IsDynamic (d : String) : Prop := ∃ name, d = "[" ++ name ++ "]"

/-- The segment is written `[...name]`. -/
def IsRest (d : String) : Prop := ∃ name, d = "[..." ++ name ++ "]"

/-- The segment is written `[[...name]]`. -/
def IsOptionalRest (d : String) : Prop := ∃ name, d = "[[..." ++ name ++ "]]"

/-- The segment stands for all that follows. -/
def IsCatchAll (d : String) : Prop := IsRest d ∨ IsOptionalRest d

variable {d : String} {ds cs : List String}

theorem IsRest.isDynamic (h : IsRest d) : IsDynamic d := by
  obtain ⟨name, rfl⟩ := h
  exact ⟨"..." ++ name, String.toList_inj.1 (by simp)⟩

theorem IsOptionalRest.isDynamic (h : IsOptionalRest d) : IsDynamic d := by
  obtain ⟨name, rfl⟩ := h
  exact ⟨"[..." ++ name ++ "]", String.toList_inj.1 (by simp)⟩

/-- No segment is written in both ways. -/
theorem IsRest.not_isOptionalRest (h : IsRest d) : ¬IsOptionalRest d := by
  obtain ⟨name, rfl⟩ := h
  rintro ⟨name', h⟩
  have hchars := congrArg String.toList h
  simp at hchars

theorem IsCatchAll.isDynamic (h : IsCatchAll d) : IsDynamic d :=
  h.elim IsRest.isDynamic IsOptionalRest.isDynamic

theorem between?_eq_some_iff {left right name : String} :
    between? left right d = some name ↔ d = left ++ name ++ right := by
  simp only [between?, Option.bind_eq_bind, Option.bind_eq_some_iff, Text.dropPrefix?_eq_some_iff,
    Text.dropSuffix?_eq_some_iff]
  constructor
  · rintro ⟨r, rfl, rfl⟩
    exact (String.append_assoc ..).symm
  · rintro rfl
    exact ⟨name ++ right, String.append_assoc .., rfl⟩

theorem between?_eq_none_iff {left right : String} :
    between? left right d = none ↔ ¬∃ name, d = left ++ name ++ right := by
  simp only [Option.eq_none_iff_forall_ne_some, ne_eq, between?_eq_some_iff, not_exists]

/-- A segment is read as it is written. -/
theorem ofSegment?_cases (d : String) :
    (IsOptionalRest d ∧ ∃ name, RouteParam.ofSegment? d = some ⟨name, true, true⟩) ∨
    (IsRest d ∧ ∃ name, RouteParam.ofSegment? d = some ⟨name, true, false⟩) ∨
    (IsDynamic d ∧ ¬IsCatchAll d ∧ ∃ name, RouteParam.ofSegment? d = some ⟨name, false, false⟩) ∨
    (¬IsDynamic d ∧ RouteParam.ofSegment? d = none) := by
  unfold RouteParam.ofSegment?
  split
  · next name h => exact Or.inl ⟨⟨name, between?_eq_some_iff.1 h⟩, name, rfl⟩
  next hoptional =>
  have hoptional : ¬IsOptionalRest d := between?_eq_none_iff.1 hoptional
  right
  split
  · next h => exact Or.inr (Or.inr ⟨between?_eq_none_iff.1 h, rfl⟩)
  next inner hinner =>
  have hinner := between?_eq_some_iff.1 hinner
  split
  · next name h =>
    refine Or.inl ⟨⟨name, ?_⟩, name, rfl⟩
    rw [hinner, Text.dropPrefix?_eq_some_iff.1 h]
    exact String.toList_inj.1 (by simp)
  · next h =>
    refine Or.inr (Or.inl ⟨⟨inner, hinner⟩, not_or.2 ⟨?_, hoptional⟩, inner, rfl⟩)
    -- Dots behind the bracket would have been dropped.
    rintro ⟨name, hname⟩
    have hchars : inner.toList ++ [']'] = ("..." ++ name).toList ++ [']'] := by
      simpa [hinner] using congrArg String.toList hname
    rw [String.toList_inj.1 (List.append_cancel_right hchars), Text.dropPrefix?_append] at h
    cases h

instance (d : String) : Decidable (IsCatchAll d) :=
  decidable_of_iff ((RouteParam.ofSegment? d).any (·.catchAll) = true) <| by
    rcases ofSegment?_cases d with ⟨h, name, hread⟩ | ⟨h, name, hread⟩ | ⟨-, h, name, hread⟩ |
      ⟨h, hread⟩ <;> rw [hread]
    · exact iff_of_true rfl (Or.inr h)
    · exact iff_of_true rfl (Or.inl h)
    · exact iff_of_false Bool.false_ne_true h
    · exact iff_of_false Bool.false_ne_true fun hc => h hc.isDynamic

/-! ## Parts of a path -/

/-- The called segments that a segment of a route takes. -/
inductive Takes (d : String) : List String → Prop
  | all (h : IsOptionalRest d) (cs : List String) : Takes d cs
  | some (h : IsRest d) {cs : List String} (hcs : cs ≠ []) : Takes d cs
  | one (h : IsDynamic d) (hd : ¬IsCatchAll d) (c : String) : Takes d [c]
  | same (h : ¬IsDynamic d) {c : String} (hc : c = d ∨ "$\x7b".toList <:+: c.toList) : Takes d [c]

/-- The called segments can be cut into parts, one for each declared segment and taken by that. -/
def Fits (ds cs : List String) : Prop :=
  ∃ parts : List (List String), parts.flatten = cs ∧ List.Forall₂ Takes ds parts

/-- The segments up to the first catch-all. -/
def uptoCatchAll : List String → List String
  | [] => []
  | d :: ds => if IsCatchAll d then [d] else d :: uptoCatchAll ds

theorem uptoCatchAll_eq_self (h : ∀ d ∈ ds.dropLast, ¬IsCatchAll d) : uptoCatchAll ds = ds := by
  induction ds with
  | nil => rfl
  | cons d ds ih =>
    cases ds with
    | nil => simp [uptoCatchAll]
    | cons e ds =>
      rw [List.dropLast_cons_cons, List.forall_mem_cons] at h
      rw [uptoCatchAll, if_neg h.1, ih h.2]

theorem fits_nil : Fits [] cs ↔ cs = [] := by
  simp [Fits, eq_comm]

theorem fits_cons : Fits (d :: ds) cs ↔
    ∃ part rest, part ++ rest = cs ∧ Takes d part ∧ Fits ds rest := by
  constructor
  · rintro ⟨_, rfl, h⟩
    cases h with
    | @cons _ part _ parts hpart hparts =>
      exact ⟨part, parts.flatten, rfl, hpart, parts, rfl, hparts⟩
  · rintro ⟨part, _, rfl, hpart, parts, rfl, hparts⟩
    exact ⟨part :: parts, rfl, .cons hpart hparts⟩

/-- The last segment of a route takes all that is left. -/
theorem fits_singleton : Fits [d] cs ↔ Takes d cs := by
  simp [fits_cons, fits_nil]

theorem takes_iff_of_isRest (h : IsRest d) : Takes d cs ↔ cs ≠ [] := by
  constructor
  · rintro (h' | ⟨-, hcs⟩ | ⟨-, hd⟩ | hd)
    · exact absurd h' h.not_isOptionalRest
    · exact hcs
    · exact absurd (Or.inl h) hd
    · exact absurd h.isDynamic hd
  · exact .some h

theorem takes_iff_of_not_isDynamic (h : ¬IsDynamic d) {c : String} :
    Takes d [c] ↔ c = d ∨ "$\x7b".toList <:+: c.toList := by
  constructor
  · rintro (h' | ⟨h', -⟩ | h' | ⟨-, hc⟩)
    · exact absurd h'.isDynamic h
    · exact absurd h'.isDynamic h
    · exact absurd h' h
    · exact hc
  · exact .same h

/-- A segment that is no catch-all takes the first called segment. -/
theorem fits_cons_of_not_isCatchAll (hd : ¬IsCatchAll d) : Fits (d :: ds) cs ↔
    ∃ c rest, cs = c :: rest ∧ Takes d [c] ∧ Fits ds rest := by
  rw [fits_cons]
  constructor
  · rintro ⟨part, rest, rfl, hpart, hrest⟩
    obtain ⟨c, rfl⟩ : ∃ c, part = [c] := by
      cases hpart with
      | all h => exact absurd (Or.inr h) hd
      | some h => exact absurd (Or.inl h) hd
      | one _ _ c => exact ⟨c, rfl⟩
      | same _ _ => exact ⟨_, rfl⟩
    exact ⟨c, rest, rfl, hpart, hrest⟩
  · rintro ⟨c, rest, rfl, hc, hrest⟩
    exact ⟨[c], rest, rfl, hc, hrest⟩

/-! ## Fitting paths -/

/-- The reading of called segments stops at the first catch-all. -/
theorem segmentsMatch_iff_fits (ds cs : List String) :
    segmentsMatch ds cs = true ↔ Fits (uptoCatchAll ds) cs := by
  induction ds generalizing cs with
  | nil => rw [segmentsMatch, uptoCatchAll, fits_nil, List.isEmpty_iff]
  | cons d ds ih =>
    rcases ofSegment?_cases d with ⟨h, name, hread⟩ | ⟨h, name, hread⟩ | ⟨h, hd, name, hread⟩ |
      ⟨h, hread⟩
    · have hd : IsCatchAll d := Or.inr h
      rw [uptoCatchAll, if_pos hd, fits_singleton]
      exact iff_of_true (by simp [segmentsMatch, hread]) (.all h cs)
    · have hd : IsCatchAll d := Or.inl h
      rw [uptoCatchAll, if_pos hd, fits_singleton, takes_iff_of_isRest h]
      simp [segmentsMatch, hread]
    · have htakes : ∀ c, Takes d [c] := .one h hd
      rw [uptoCatchAll, if_neg hd, fits_cons_of_not_isCatchAll hd]
      cases cs <;> simp [segmentsMatch, hread, ih, htakes]
    · have hd : ¬IsCatchAll d := fun hc => h hc.isDynamic
      rw [uptoCatchAll, if_neg hd, fits_cons_of_not_isCatchAll hd]
      cases cs <;> simp [segmentsMatch, hread, ih, takes_iff_of_not_isDynamic h, Text.contains_iff]

/-- The text is the path of an address, without origin, query and fragment. -/
structure IsPath (s : String) : Prop where
  noOrigin : ∀ scheme ∈ ["http://", "https://"], ¬scheme.toList <+: s.toList
  noQuery : '?' ∉ s.toList
  noFragment : '#' ∉ s.toList

instance (s : String) : Decidable (IsPath s) :=
  decidable_of_iff ((∀ scheme ∈ ["http://", "https://"], ¬scheme.toList <+: s.toList) ∧
    '?' ∉ s.toList ∧ '#' ∉ s.toList) ⟨fun h => ⟨h.1, h.2.1, h.2.2⟩, fun h => ⟨h.1, h.2, h.3⟩⟩

theorem IsPath.calledSegments {s : String} (h : IsPath s) : calledSegments s = segments s := by
  have hall : ∀ c ∈ s.toList, decide (c ≠ '?' ∧ c ≠ '#') = true := fun c hc =>
    decide_eq_true ⟨fun he => h.noQuery (he ▸ hc), fun he => h.noFragment (he ▸ hc)⟩
  rw [Nextjs.calledSegments, stripOrigin_eq_self h.noOrigin,
    List.takeWhile_eq_self_iff.2 hall, String.ofList_toList]

/-- No segment of the route but the last stands for all that follows. -/
def Api.CatchesAllLast (a : Api) : Prop :=
  ∀ d ∈ (segments a.route).dropLast, ¬IsCatchAll d

instance (a : Api) : Decidable a.CatchesAllLast :=
  inferInstanceAs (Decidable (∀ d ∈ (segments a.route).dropLast, ¬IsCatchAll d))

/-- A path calls a route just if it fits the segments up to the first catch-all. -/
theorem Api.isCalledBy_iff_fits_uptoCatchAll (a : Api) {path : String} (hpath : IsPath path) :
    a.isCalledBy path = true ↔ Fits (uptoCatchAll (segments a.route)) (segments path) := by
  rw [Api.isCalledBy, hpath.calledSegments, segmentsMatch_iff_fits]

/-- A path calls a route just if its segments can be cut into one part for each segment of the
route. -/
theorem Api.isCalledBy_iff_fits {a : Api} (ha : a.CatchesAllLast) {path : String}
    (hpath : IsPath path) : a.isCalledBy path = true ↔ Fits (segments a.route) (segments path) := by
  rw [a.isCalledBy_iff_fits_uptoCatchAll hpath, uptoCatchAll_eq_self ha]

/-- A route of files, with the rest of the path behind it. -/
def files : Api where
  route := "/shops/[shop]/files/[...path]"

theorem files_fit : files.CatchesAllLast ∧
    IsPath "/shops/$\x7bid\x7d/files/a/b" ∧ IsPath "/shops/7/files" ∧
    Fits (segments files.route) (segments "/shops/$\x7bid\x7d/files/a/b") ∧
    ¬Fits (segments files.route) (segments "/shops/7/files") :=
  ⟨by decide, by decide, by decide,
    (Api.isCalledBy_iff_fits (by decide) (by decide)).1 (by decide),
    fun h => absurd ((Api.isCalledBy_iff_fits (by decide) (by decide)).2 h) (by decide)⟩

end Atlas.Nextjs
