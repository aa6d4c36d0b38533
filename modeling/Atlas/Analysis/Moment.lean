import Atlas.Text

/-!
# Moments

A moment since the start of the year 1970, and its text: the date and the time of day in UTC, with
as many groups of three digits behind the second as it takes.
-/

namespace Atlas

/-- A moment, counted in nanoseconds from the start of the year 1970 in UTC. -/
structure Moment where
  nanoseconds : Nat

namespace Moment

/-- A number in decimal digits, with zeros in front up to a width. -/
def padded (width n : Nat) : String :=
  let digits := toString n
  Text.repeated (width - digits.length) "0" ++ digits

/-- The year, the month and the day, for days counted from the start of the year 1970. Years are
counted from March on, so that the day that a leap year has more comes last, in eras of 400. -/
def date (days : Nat) : Nat × Nat × Nat :=
  let n := days + 719468
  let era := n / 146097
  let dayOfEra := n % 146097
  let yearOfEra := (dayOfEra - dayOfEra / 1460 + dayOfEra / 36524 - dayOfEra / 146096) / 365
  let dayOfYear := dayOfEra - (365 * yearOfEra + yearOfEra / 4 - yearOfEra / 100)
  let m := (5 * dayOfYear + 2) / 153
  let day := dayOfYear - (153 * m + 2) / 5 + 1
  let month := if m < 10 then m + 3 else m - 9
  let year := yearOfEra + era * 400
  (if month ≤ 2 then year + 1 else year, month, day)

/-- What is written of a second behind the point. -/
def fractionText (nanoseconds : Nat) : String :=
  if nanoseconds = 0 then ""
  else if nanoseconds % 1000000 = 0 then "." ++ padded 3 (nanoseconds / 1000000)
  else if nanoseconds % 1000 = 0 then "." ++ padded 6 (nanoseconds / 1000)
  else "." ++ padded 9 nanoseconds

/-- The text of a moment. -/
def text (t : Moment) : String :=
  let seconds := t.nanoseconds / 1000000000
  let (year, month, day) := date (seconds / 86400)
  let time := seconds % 86400
  padded 4 year ++ "-" ++ padded 2 month ++ "-" ++ padded 2 day ++ "T" ++
    padded 2 (time / 3600) ++ ":" ++ padded 2 (time / 60 % 60) ++ ":" ++ padded 2 (time % 60) ++
    fractionText (t.nanoseconds % 1000000000) ++ "+00:00"

end Moment

end Atlas
