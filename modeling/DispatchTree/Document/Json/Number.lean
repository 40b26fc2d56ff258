import DispatchTree.Document.Basic
import DispatchTree.Number.Literal

/-!
# Numbers in JSON texts

A number without fraction and exponent that fits into 64 bits is an integer. Any other number is a double-precision value: its
leading digits that fit into 64 bits are taken as the significand, the remaining digits only move the point, and the significand
is then multiplied or divided by a power of ten. A number too large for the format has no value.
-/

namespace DispatchTree.Json

/-- The parts of a number as they stand in the text. -/
structure NumberText where
  negative : Bool
  whole : List Char
  fraction : List Char
  /-- The sign and the digits after the exponent mark. -/
  exponent : Option (Bool × List Char)
  deriving DecidableEq, Repr

/-- The greatest significand. -/
def maxSignificand : Nat := (1 <<< 64) - 1

/-- Appends digits to a significand as long as it fits; also the digits that are left over. -/
def takeDigits : Nat → List Char → Nat × List Char
  | n, [] => (n, [])
  | n, c :: cs =>
    if 10 * n + digitValue c ≤ maxSignificand then takeDigits (10 * n + digitValue c) cs else (n, c :: cs)

/-- Multiplies or divides a value by a power of ten, a large negative power in several steps. Fails when the result is too large. -/
def scale : Nat → Binary64 → Int → Option Binary64
  | 0, x, _ => some x
  | fuel + 1, x, e =>
    if e.natAbs ≤ 308 then
      let power := Binary64.ofDecimal false 1 (e.natAbs : Int)
      if 0 ≤ e then
        let y := x.mul power
        if y.isInfinite then none else some y
      else some (x.div power)
    else if x.isZero then some x
    else if 0 ≤ e then none
    else scale fuel (x.div (Binary64.ofDecimal false 1 308)) (e + 308)

/-- The digits of an exponent as a number, unless it exceeds 31 bits. -/
def exponentValue? (ds : List Char) : Option Nat := (some (digitsValue ds)).filter (· < 1 <<< 31)

namespace NumberText

/-- The significand and the power of ten in front of the exponent part. -/
def significand (t : NumberText) : Nat × Int :=
  let (n, overWhole) := takeDigits 0 t.whole
  let (n, overFraction) := takeDigits n t.fraction
  (n, (overWhole.length : Int) - ((t.fraction.length : Int) - overFraction.length))

/-- The magnitude as a double-precision value. -/
def magnitude (t : NumberText) : Option Binary64 :=
  let (n, e) := t.significand
  match t.exponent with
  | none => scale 8 (.ofNat n) e
  | some (negative, ds) =>
    match exponentValue? ds with
    | some v => scale 8 (.ofNat n) (if negative then e - v else e + v)
    | none => if n ≠ 0 ∧ !negative then none else some (.zero false)

/-- The number as a double-precision value. -/
def asFloat (t : NumberText) : Draft :=
  match t.magnitude with
  | none => .unreadable
  | some x => .float (if t.negative then x.neg else x)

/-- The value of a number. A negative zero is not an integer. -/
def value (t : NumberText) : Draft :=
  let n := digitsValue t.whole
  if t.fraction.isEmpty && t.exponent.isNone && n ≤ maxSignificand then
    if !t.negative then .integer n
    else if n ≠ 0 ∧ n ≤ 1 <<< 63 then .integer (-(n : Int))
    else .float (Binary64.ofNat n).neg
  else t.asFloat

end NumberText

end DispatchTree.Json
