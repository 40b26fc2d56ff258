/-!
# The clock of the journal

Times are written as date and time of day in the zone of Greenwich, with the fraction of the second in nanoseconds.
-/

namespace DispatchTree.Clock

/-- Year, month and day of a day that is counted from the first of March of the year 0. -/
def dateOfDay (day : Nat) : Nat × Nat × Nat :=
  let era := day / 146097
  let dayOfEra := day % 146097
  let yearOfEra := (dayOfEra - dayOfEra / 1460 + dayOfEra / 36524 - dayOfEra / 146096) / 365
  let dayOfYear := dayOfEra - (365 * yearOfEra + yearOfEra / 4 - yearOfEra / 100)
  let month := (5 * dayOfYear + 2) / 153
  let year := yearOfEra + era * 400
  (if month < 10 then year else year + 1, if month < 10 then month + 3 else month - 9, dayOfYear - (153 * month + 2) / 5 + 1)

/-- The days from the first of March of the year 0 to the first of January of 1970. -/
def epochDay : Nat := 719468

/-- A number with zeros in front. -/
def digits (n width : Nat) : String := "".pushn '0' (width - (Nat.repr n).length) ++ Nat.repr n

/-- The text of a time that is given in seconds and nanoseconds after the start of 1970. -/
def text (seconds nanoseconds : Nat) : String :=
  let (year, month, day) := dateOfDay (epochDay + seconds / 86400)
  let rest := seconds % 86400
  digits year 4 ++ "-" ++ digits month 2 ++ "-" ++ digits day 2 ++ "T" ++ digits (rest / 3600) 2 ++ ":" ++
    digits (rest / 60 % 60) 2 ++ ":" ++ digits (rest % 60) 2 ++ "." ++ digits nanoseconds 9 ++ "+00:00"

end DispatchTree.Clock
