import Atlas.Pattern.Reader
import Atlas.Text

/-!
# Ignored paths

The patterns that say which paths are left out. A pattern that cannot be read is dropped, so it
hides nothing; a path is ignored if any other pattern matches it (`IgnoreSet.isMatch_iff`).
-/

namespace Atlas

/-- The readable patterns. -/
structure IgnoreSet where
  patterns : List Pattern

namespace IgnoreSet

/-- The patterns of the texts that are patterns. -/
def ofTexts (texts : List String) : IgnoreSet := ⟨texts.filterMap Pattern.read?⟩

/-- A path with slashes only. -/
def normalized (path : String) : String := Text.replace "\\" "/" path

/-- Whether a path is ignored. -/
def isMatch (s : IgnoreSet) (path : String) : Bool :=
  s.patterns.any (·.isMatch (normalized path).toList)

/-- How many patterns there are. -/
def size (s : IgnoreSet) : Nat := s.patterns.length

theorem isMatch_iff (s : IgnoreSet) (path : String) :
    s.isMatch path = true ↔ ∃ p ∈ s.patterns, p.isMatch (normalized path).toList = true := by
  simp [isMatch]

end IgnoreSet

end Atlas
