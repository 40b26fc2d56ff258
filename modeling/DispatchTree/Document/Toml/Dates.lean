import DispatchTree.Document.Toml.Scalar

/-!
# Dates that are written as tables

A date can be handed on as a table whose first name is a reserved one and whose first value is a text; whatever follows is passed
over. The text is read more freely than a date that stands in a TOML text: an hour may be the twenty-fourth, an offset may have
more than 59 minutes, and it may follow a day without a time.
-/

namespace DispatchTree.Toml

/-- A number with two digits at least. -/
def twoDigits (n : Nat) : String := if n < 10 then "0" ++ Nat.repr n else Nat.repr n

/-- The offset at the end of a text, if one is given: at most a day, and written with hours and minutes. -/
def freeOffset? : List Char → Option String
  | [] => some ""
  | ['Z'] => some "Z"
  | ['z'] => some "Z"
  | c :: cs => do
    if c ≠ '+' ∧ c ≠ '-' then none
    else
      let (h, cs) ← digits? 2 cs
      let ':' :: cs := cs | none
      let (m, cs) ← digits? 2 cs
      let minutes := digitsValue h * 60 + digitsValue m
      if minutes ≤ 24 * 60 ∧ cs.isEmpty then
        let sign := if c = '-' ∧ minutes ≠ 0 then "-" else "+"
        some (sign ++ twoDigits (minutes / 60) ++ ":" ++ twoDigits (minutes % 60))
      else none

/-- A text as a date: a time of day, or a day with an optional time and offset. -/
def freeDate? (cs : List Char) : Option String :=
  if cs[2]? = some ':' then
    match clock? 24 cs with
    | some (clock, []) => some clock
    | _ => none
  else do
    let (day, rest) ← day? cs
    match rest with
    | 'T' :: rest | 't' :: rest | ' ' :: rest =>
      let (clock, rest) ← clock? 24 rest
      return day ++ "T" ++ clock ++ (← freeOffset? rest)
    | rest => return day ++ (← freeOffset? rest)

mutual

/-- The document with its dates that are written as tables. There is none when such a table holds no date. -/
def withDates? : Document → Option Document
  | .list ds => (withDatesItems? ds).map .list
  | .table [] => some (.table [])
  | .table ((name, d) :: es) =>
    if name = Document.dateKey then
      match d with
      | .string s => (freeDate? s.toList).map .date
      | _ => none
    else do
      let d ← withDates? d
      return .table ((name, d) :: (← withDatesEntries? es))
  | d => some d

/-- Items with their dates. -/
def withDatesItems? : List Document → Option (List Document)
  | [] => some []
  | d :: ds => do
    let d ← withDates? d
    return d :: (← withDatesItems? ds)

/-- Entries with their dates. -/
def withDatesEntries? : List (String × Document) → Option (List (String × Document))
  | [] => some []
  | (name, d) :: es => do
    let d ← withDates? d
    return (name, d) :: (← withDatesEntries? es)

end

end DispatchTree.Toml
