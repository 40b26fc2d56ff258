import DispatchTree.Document.Basic
import DispatchTree.Number.Literal
import DispatchTree.Number.Shortest
import DispatchTree.Text.Lowercase

/-!
# Loosely typed values

A setting may be given as a value of another kind that can be taken for the kind that is wanted: a number for a text, a text for a
number, a number or a word for a truth value. Lists, tables and missing values are never taken for anything else.
-/

namespace DispatchTree.Settings

/-- A value as a text. -/
def asText? : Document → Option String
  | .boolean b => some (if b then "true" else "false")
  | .integer n => some (if n < 0 then "-" ++ Nat.repr n.natAbs else Nat.repr n.natAbs)
  | .float x => some x.text
  | .string s => some s
  | .date s => some s
  | _ => none

/-- The words for yes and no. -/
def word? (s : String) : Option Bool :=
  let w := Text.lower s
  if w = "true" ∨ w = "on" ∨ w = "yes" then some true
  else if w = "false" ∨ w = "off" ∨ w = "no" then some false
  else none

/-- A value as a truth value. A number is true unless it is zero. -/
def asBool? : Document → Option Bool
  | .boolean b => some b
  | .integer n => some (n != 0)
  | .float x => some (!x.isZero)
  | .string s => if s = "1" then some true else if s = "0" then some false else word? s
  | _ => none

/-- A floating-point value as a natural number of 64 bits: rounded with a half away from zero, and cut off at the bounds. -/
def natOfFloat : Binary64 → Nat
  | .nan => 0
  | .infinite negative => if negative then 0 else (1 <<< 64) - 1
  | .finite negative m e => if negative then 0 else min (Binary64.roundMagnitude m e) ((1 <<< 64) - 1)

/-- A value as a natural number. -/
def asNat? : Document → Option Nat
  | .boolean b => some (if b then 1 else 0)
  | .integer n => if 0 ≤ n then some n.toNat else none
  | .float x => some (natOfFloat x)
  | .string s =>
    match word? s with
    | some b => some (if b then 1 else 0)
    | none => boundedNatOfText? (1 <<< 64) s
  | _ => none

/-- A value as a word of sixteen bits. -/
def asWidth? (d : Document) : Option UInt16 := ((asNat? d).filter (· < 1 <<< 16)).map Nat.toUInt16

end DispatchTree.Settings
