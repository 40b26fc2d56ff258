import DispatchTree.Number.Binary64

/-!
# Number texts

Reading of whole and fractional numbers from a text: an optional sign, digits, a fraction and an exponent. The readers take the
whole text or nothing.
-/

namespace DispatchTree

/-- The value of a decimal digit. -/
def digitValue (c : Char) : Nat := c.toNat - '0'.toNat

/-- The value of a list of decimal digits. -/
def digitsValue (ds : List Char) : Nat := ds.foldl (fun n c => 10 * n + digitValue c) 0

/-- The value of a digit in a base up to sixteen, if the character is one. -/
def digitIn? (base : Nat) (c : Char) : Option Nat :=
  let v :=
    if c.isDigit then some (c.toNat - '0'.toNat)
    else if 'a' ≤ c ∧ c ≤ 'f' then some (c.toNat - 'a'.toNat + 10)
    else if 'A' ≤ c ∧ c ≤ 'F' then some (c.toNat - 'A'.toNat + 10)
    else none
  v.filter (· < base)

/-- The value of digits in a base, if all of them are digits of it. -/
def valueIn? (base : Nat) (ds : List Char) : Option Nat :=
  ds.foldlM (fun n c => (digitIn? base c).map (base * n + ·)) 0

/-- A sign in front of a text: whether it is a minus, and what follows. -/
def splitSign : List Char → Bool × List Char
  | '-' :: cs => (true, cs)
  | '+' :: cs => (false, cs)
  | cs => (false, cs)

/-- A natural number of decimal digits with an optional plus sign. -/
def natOfText? (s : String) : Option Nat :=
  let ds := match s.toList with
    | '+' :: cs => cs
    | cs => cs
  if ds.isEmpty || !ds.all Char.isDigit then none else some (digitsValue ds)

/-- A natural number below `bound`, as `natOfText?` reads it. -/
def boundedNatOfText? (bound : Nat) (s : String) : Option Nat := (natOfText? s).filter (· < bound)

/-- A whole number of 64 bits with an optional sign. -/
def int64OfText? (s : String) : Option Int :=
  let (negative, ds) := splitSign s.toList
  if ds.isEmpty || !ds.all Char.isDigit then none
  else
    let n := digitsValue ds
    if negative then (if n ≤ 1 <<< 63 then some (-(n : Int)) else none)
    else if n < 1 <<< 63 then some (n : Int) else none

namespace Binary64

/-- The exponent part of a number: nothing, or a mark with an optional sign and digits. -/
def exponentOf? : List Char → Option Int
  | [] => some 0
  | c :: cs =>
    if c = 'e' ∨ c = 'E' then
      let (negative, ds) := splitSign cs
      if ds.isEmpty || !ds.all Char.isDigit then none
      else some (if negative then -(digitsValue ds : Int) else digitsValue ds)
    else none

/-- The fraction part of a number: its digits, and what follows them. -/
def fractionOf : List Char → List Char × List Char
  | '.' :: cs => (cs.takeWhile Char.isDigit, cs.dropWhile Char.isDigit)
  | cs => ([], cs)

/-- A decimal number: a sign, digits with an optional point, and an exponent. At least one digit stands before or after the point;
`inf`, `infinity` and `nan` are read in any case. -/
def ofText? (s : String) : Option Binary64 :=
  let (negative, cs) := splitSign s.toList
  let word := String.ofList (cs.map Char.toLower)
  if word = "inf" ∨ word = "infinity" then some (.infinite negative)
  else if word = "nan" then some .nan
  else
    let whole := cs.takeWhile Char.isDigit
    let (frac, rest) := fractionOf (cs.dropWhile Char.isDigit)
    if whole.isEmpty && frac.isEmpty then none
    else (exponentOf? rest).map fun e =>
      ofDecimal negative (digitsValue (whole ++ frac)) (e - frac.length)

end Binary64

end DispatchTree
