import DispatchTree.Document.Basic
import DispatchTree.Document.Toml.Lexical

/-!
# Numbers, dates and names of TOML

A value that is no string, list or table is a run of letters, digits and a few signs; only a date and a time of day may have a space
between them. The whole run must be a value.
-/

namespace DispatchTree.Toml

/-- Characters of a value without quotes or brackets. -/
def isWord (c : Char) : Bool := c.isAlphanum || c == '_' || c == '+' || c == '-' || c == '.' || c == ':'

/-- Digits without the underscores between them. An underscore stands between two digits only. -/
def ungroup? (isDigit : Char → Bool) : List Char → Option (List Char)
  | [] => none
  | [c] => if isDigit c then some [c] else none
  | c :: '_' :: cs => if isDigit c then (ungroup? isDigit cs).map (c :: ·) else none
  | c :: cs => if isDigit c then (ungroup? isDigit cs).map (c :: ·) else none

/-- Decimal digits without underscores, and without a zero in front of other digits. -/
def decimal? (cs : List Char) : Option (List Char) :=
  match ungroup? Char.isDigit cs with
  | some ('0' :: _ :: _) => none
  | ds => ds

/-- A whole number of 64 bits. Numbers in other bases have no sign. -/
def integer? (cs : List Char) : Option Int :=
  match cs with
  | '0' :: 'x' :: ds => based 16 ds
  | '0' :: 'o' :: ds => based 8 ds
  | '0' :: 'b' :: ds => based 2 ds
  | cs => do
    let (negative, ds) := splitSign cs
    let n := digitsValue (← decimal? ds)
    if negative then (if n ≤ 1 <<< 63 then some (-(n : Int)) else none)
    else if n < 1 <<< 63 then some n else none
where
  /-- Digits of a base. -/
  based (base : Nat) (ds : List Char) : Option Int := do
    let n ← valueIn? base (← ungroup? (fun c => (digitIn? base c).isSome) ds)
    if n < 1 <<< 63 then some n else none

/-- Digits and the underscores between them. -/
def isGrouped (c : Char) : Bool := c.isDigit || c == '_'

/-- The fraction digits of a number, and what follows them; there are none when no point comes next. -/
def fractionDigits? : List Char → Option (List Char × List Char)
  | '.' :: cs => (ungroup? Char.isDigit (cs.takeWhile isGrouped)).map (·, cs.dropWhile isGrouped)
  | cs => some ([], cs)

/-- The exponent at the end of a number; it may begin with zeros. -/
def exponent? : List Char → Option Int
  | [] => some 0
  | c :: cs =>
    if c = 'e' ∨ c = 'E' then do
      let (negative, ds) := splitSign cs
      let n := digitsValue (← ungroup? Char.isDigit ds)
      return if negative then -(n : Int) else n
    else none

/-- A number with a fraction or an exponent, or one of the special values. A number too large for the format is refused unless it
is negative. -/
def float? (cs : List Char) : Option Binary64 :=
  let (negative, body) := splitSign cs
  if body = ['i', 'n', 'f'] then some (.infinite negative)
  else if body = ['n', 'a', 'n'] then some .nan
  else do
    let whole ← decimal? (body.takeWhile isGrouped)
    let rest := body.dropWhile isGrouped
    if rest.isEmpty then none
    else do
      let (fraction, rest) ← fractionDigits? rest
      let e ← exponent? rest
      let x := Binary64.ofDecimal negative (digitsValue (whole ++ fraction)) (e - fraction.length)
      if x = .infinite false then none else some x

/-- Exactly `n` digits. -/
def digits? (n : Nat) (cs : List Char) : Option (List Char × List Char) :=
  let ds := cs.take n
  if ds.length = n ∧ ds.all Char.isDigit then some (ds, cs.drop n) else none

/-- The number of days in a month. -/
def daysIn (year month : Nat) : Nat :=
  if month = 2 then (if year % 4 = 0 ∧ (year % 100 ≠ 0 ∨ year % 400 = 0) then 29 else 28)
  else if month = 4 ∨ month = 6 ∨ month = 9 ∨ month = 11 then 30
  else 31

/-- A day: year, month and day of the month. -/
def day? (cs : List Char) : Option (String × List Char) := do
  let (y, cs) ← digits? 4 cs
  let '-' :: cs := cs | none
  let (m, cs) ← digits? 2 cs
  let '-' :: cs := cs | none
  let (d, cs) ← digits? 2 cs
  let month := digitsValue m
  let day := digitsValue d
  if 1 ≤ month ∧ month ≤ 12 ∧ 1 ≤ day ∧ day ≤ daysIn (digitsValue y) month then
    some (String.ofList (y ++ '-' :: m ++ '-' :: d), cs)
  else none

/-- The fraction of a second: nine digits count, and zeros at the end are not written. -/
def subsecond (ds : List Char) : String :=
  let kept := ((ds.take 9).reverse.dropWhile (· == '0')).reverse
  if kept.isEmpty then "" else "." ++ String.ofList kept

/-- A time of day with an hour up to the given one. -/
def clock? (lastHour : Nat) (cs : List Char) : Option (String × List Char) := do
  let (h, cs) ← digits? 2 cs
  let ':' :: cs := cs | none
  let (m, cs) ← digits? 2 cs
  let ':' :: cs := cs | none
  let (s, cs) ← digits? 2 cs
  if digitsValue h ≤ lastHour ∧ digitsValue m ≤ 59 ∧ digitsValue s ≤ 60 then
    let base := String.ofList (h ++ ':' :: m ++ ':' :: s)
    match cs with
    | '.' :: cs =>
      let ds := cs.takeWhile Char.isDigit
      if ds.isEmpty then none else some (base ++ subsecond ds, cs.dropWhile Char.isDigit)
    | cs => some (base, cs)
  else none

/-- The offset at the end of a point in time, if one is given. An offset of zero is written with a plus. -/
def offset? : List Char → Option String
  | [] => some ""
  | ['Z'] => some "Z"
  | ['z'] => some "Z"
  | c :: cs => do
    if c ≠ '+' ∧ c ≠ '-' then none
    else
      let (h, cs) ← digits? 2 cs
      let ':' :: cs := cs | none
      let (m, cs) ← digits? 2 cs
      if digitsValue h ≤ 23 ∧ digitsValue m ≤ 59 ∧ cs.isEmpty then
        let sign := if digitsValue h = 0 ∧ digitsValue m = 0 then '+' else c
        some (String.ofList (sign :: h ++ ':' :: m))
      else none

/-- A day with an optional time and offset, or a time of day. -/
def date? (cs : List Char) : Option String :=
  match day? cs with
  | some (day, []) => some day
  | some (day, t :: cs) =>
    if t = 'T' ∨ t = 't' then do
      let (clock, cs) ← clock? 23 cs
      return day ++ "T" ++ clock ++ (← offset? cs)
    else none
  | none =>
    match clock? 23 cs with
    | some (clock, []) => some clock
    | _ => none

/-- The value of a run of characters. -/
def wordValue? (cs : List Char) : Option Document :=
  if cs = ['t', 'r', 'u', 'e'] then some (.boolean true)
  else if cs = ['f', 'a', 'l', 's', 'e'] then some (.boolean false)
  else
    match integer? cs with
    | some n => some (.integer n)
    | none =>
      match float? cs with
      | some x => some (.float x)
      | none => (date? cs).map .date

/-- Whether a run of characters is a day. -/
def isDay (cs : List Char) : Bool :=
  match day? cs with
  | some (_, []) => true
  | _ => false

/-- A value that is no string, list or table. A day, a space and a digit begin a point in time. -/
def scalar (cs : List Char) : Option (Document × List Char) :=
  let word := cs.takeWhile isWord
  let rest := cs.dropWhile isWord
  match rest with
  | ' ' :: d :: _ =>
    if d.isDigit && isDay word then
      let rest := rest.drop 1
      (wordValue? (word ++ 'T' :: rest.takeWhile isWord)).map (·, rest.dropWhile isWord)
    else (wordValue? word).map (·, rest)
  | _ => (wordValue? word).map (·, rest)

end DispatchTree.Toml
