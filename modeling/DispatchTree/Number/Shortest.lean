import DispatchTree.Number.Binary64

/-!
# Shortest decimal text

The text of a double-precision value is the decimal with the fewest digits that reads back as that value, and of those the nearest
one. A style says which of two equally near decimals is taken, and which values are written with a power of ten.
-/

namespace DispatchTree.Binary64

/-- The reals that round to `m * 2 ^ e`, in units of `2 ^ (e - 2)`: the lower end, the value and the upper end. Below a power of
two the gap to the next value is half as wide. -/
def interval (m : Nat) (e : Int) : Nat × Nat × Nat :=
  if m = 1 <<< 52 ∧ e ≠ minExponent then (4 * m - 1, 4 * m, 4 * m + 2) else (4 * m - 2, 4 * m, 4 * m + 2)

/-- Whether `d * 10 ^ k` lies in the interval of `m * 2 ^ e`; the ends belong to it when `m` is even. -/
def holds (m : Nat) (e : Int) (d : Nat) (k : Int) : Bool :=
  let (lo, _, hi) := interval m e
  -- Both sides as natural numbers: the decimal on the left, the ends of the interval on the right.
  let left := d * (if 0 ≤ k then Nat.pow 10 k.toNat else 1) * (if e - 2 < 0 then 1 <<< (2 - e).toNat else 1)
  let scale := (if k < 0 then Nat.pow 10 (-k).toNat else 1) * (if 0 ≤ e - 2 then 1 <<< (e - 2).toNat else 1)
  if m % 2 = 0 then lo * scale ≤ left && left ≤ hi * scale else lo * scale < left && left < hi * scale

/-- Which of two decimals is taken when a value lies in the middle between them. -/
inductive Tie where
  /-- The one farther from zero. -/
  | up
  /-- The one whose last digit is even. -/
  | even
  deriving DecidableEq, Repr

/-- How a value is written. -/
structure Style where
  tie : Tie
  /-- The places of the decimal point that are shown as such, above the first number and up to the second; any other value has a
  power of ten. Without them every value is written positionally. -/
  points : Option (Int × Int)
  /-- Whether a whole value shows a zero after the point. -/
  wholePoint : Bool
  deriving DecidableEq, Repr

/-- The decimal below or at `m * 2 ^ e / 10 ^ k`, and whether the one above it comes first. -/
def onGrid (tie : Tie) (m : Nat) (e : Int) (k : Int) : Nat × Bool :=
  let num := m * (if 0 ≤ e then 1 <<< e.toNat else 1) * (if k < 0 then Nat.pow 10 (-k).toNat else 1)
  let den := (if e < 0 then 1 <<< (-e).toNat else 1) * (if 0 ≤ k then Nat.pow 10 k.toNat else 1)
  let low := num / den
  let rest := 2 * (num % den)
  (low, den < rest || (rest == den && (tie == .up || low % 2 == 1)))

/-- How many times `num` can be multiplied by ten, at most `fuel` times, before the fraction `num / den` is a tenth or more. -/
def zerosAfterPoint (den : Nat) : Nat → Nat → Nat
  | 0, _ => 0
  | fuel + 1, num => if den ≤ num * 10 then 0 else zerosAfterPoint den fuel (num * 10) + 1

/-- The number of digits of the whole part of a value, or for a value below one the negated number of zeros after the point. -/
def decimalPoint (m : Nat) (e : Int) : Int :=
  let (n, d) := fraction m e
  if d ≤ n then (Nat.toDigits 10 (n / d)).length else -(zerosAfterPoint d 400 n : Int)

/-- The digits and the power of ten of the shortest decimal, with at least `n` digits, for a finite value that is not zero. -/
def shortestFrom (tie : Tie) (m : Nat) (e : Int) (point : Int) : Nat → Nat → Nat × Int
  | 0, n => ((onGrid tie m e (point - n)).1, point - n)
  | fuel + 1, n =>
    let k := point - n
    let (low, up) := onGrid tie m e k
    let first := if up then low + 1 else low
    let other := if up then low else low + 1
    if holds m e first k then (first, k)
    else if holds m e other k then (other, k)
    else shortestFrom tie m e point fuel (n + 1)

/-- The digits and the power of ten of the shortest decimal that reads back as a finite value other than zero. -/
def shortest (tie : Tie) (m : Nat) (e : Int) : Nat × Int := shortestFrom tie m e (decimalPoint m e) 17 1

/-- The decimal `digits * 10 ^ k` in positional notation. -/
def positional (digits : Nat) (k : Int) : String :=
  let ds := Nat.repr digits
  if 0 ≤ k then ds.pushn '0' k.toNat
  else
    let places := (-k).toNat
    let padded := if ds.length ≤ places then "".pushn '0' (places + 1 - ds.length) ++ ds else ds
    let whole := (padded.take (padded.length - places)).toString
    let rest := (padded.drop (padded.length - places)).toString
    whole ++ "." ++ rest

/-- A shortest decimal without the zeros at the end of its digits. -/
def trimZeros : Nat → Nat × Int → Nat × Int
  | 0, p => p
  | fuel + 1, (d, k) => if d ≠ 0 ∧ d % 10 = 0 then trimZeros fuel (d / 10, k + 1) else (d, k)

/-- The decimal `digits * 10 ^ k` with one digit before the point and a power of ten that has a sign. -/
def scientific (digits : Nat) (k : Int) : String :=
  let ds := (Nat.repr digits).toList
  let power := k + ds.length - 1
  String.ofList (ds.take 1 ++ (if ds.length ≤ 1 then [] else '.' :: ds.drop 1)) ++ "e" ++
    (if power < 0 then "-" else "+") ++ Nat.repr power.natAbs

/-- Whether the decimal `digits * 10 ^ k` is written without a power of ten. -/
def Style.isPositional (style : Style) (digits : Nat) (k : Int) : Bool :=
  match style.points with
  | none => true
  | some (lo, hi) =>
    let point := k + (Nat.repr digits).length
    lo < point && point ≤ hi

/-- The decimal `digits * 10 ^ k` in a style. -/
def Style.write (style : Style) (digits : Nat) (k : Int) : String :=
  if !style.isPositional digits k then scientific digits k
  else if style.wholePoint && 0 ≤ k then positional digits k ++ ".0"
  else positional digits k

/-- The text of a value in a style. -/
def format (style : Style) : Binary64 → String
  | .nan => "NaN"
  | .infinite s => if s then "-inf" else "inf"
  | .finite s m e =>
    let sign := if s then "-" else ""
    if m = 0 then sign ++ style.write 0 0
    else
      let (d, k) := trimZeros 20 (shortest style.tie m e)
      sign ++ style.write d k

/-- The text of a value: `2`, `1.5`, `-0`, `inf`, `NaN`. -/
def text (x : Binary64) : String := x.format ⟨.up, none, false⟩

end DispatchTree.Binary64
