import Mathlib.Tactic.Ring

/-!
# Binary digits

Lists of binary digits and the numbers they stand for: `value` reads the least significant digit first, `numeral` the most
significant one. What the primality tester computes with them is stated as equations between values: the successor
(`value_increment`), the comparison from the first digit on (`compare_numeral_cons`), and the difference with a borrow
(`value_difference`).
-/

namespace DispatchTree.Primality

/-- The number that digits stand for, the least significant one first. -/
def value : List Bool → Nat
  | [] => 0
  | d :: ds => d.toNat + 2 * value ds

/-- The number that digits stand for, the most significant one first. -/
def numeral (ds : List Bool) : Nat := ds.foldl (fun n d => 2 * n + d.toNat) 0

/-- The more significant digits are shifted by as many places as there are digits before them. -/
theorem value_append (as bs : List Bool) : value (as ++ bs) = value as + 2 ^ as.length * value bs := by
  induction as with
  | nil => simp [value]
  | cons a as ih =>
    simp only [List.cons_append, value, ih, List.length_cons]
    ring

/-- A number is less than the power of two with as many digits. -/
theorem value_lt (ds : List Bool) : value ds < 2 ^ ds.length := by
  induction ds with
  | nil => decide
  | cons d ds ih =>
    have hd := d.toNat_le
    rw [value, List.length_cons, Nat.pow_succ]
    omega

/-- A number is at least what its most significant digit counts. -/
theorem le_value_append_true (ds : List Bool) : 2 ^ ds.length ≤ value (ds ++ [true]) := by
  rw [value_append]
  simp [value]

/-- The two ways of reading digits are each other's reverse. -/
theorem numeral_eq (ds : List Bool) : numeral ds = value ds.reverse := by
  have hfold : ∀ ds : List Bool, value ds = ds.foldr (fun d n => 2 * n + d.toNat) 0 := by
    intro ds
    induction ds with
    | nil => rfl
    | cons d ds ih => rw [value, List.foldr_cons, ih, Nat.add_comm]
  rw [hfold, List.foldr_reverse]
  rfl

/-- The digits in front are shifted by as many places as there are digits behind them. -/
theorem numeral_append (as bs : List Bool) : numeral (as ++ bs) = numeral as * 2 ^ bs.length + numeral bs := by
  rw [numeral_eq, numeral_eq, numeral_eq, List.reverse_append, value_append, List.length_reverse]
  ring

theorem numeral_cons (d : Bool) (ds : List Bool) : numeral (d :: ds) = d.toNat * 2 ^ ds.length + numeral ds := by
  rw [← List.singleton_append, numeral_append]
  simp [numeral]

/-- A digit at the end doubles the number and adds itself. -/
theorem numeral_append_singleton (ds : List Bool) (d : Bool) : numeral (ds ++ [d]) = 2 * numeral ds + d.toNat := by
  simp [numeral]

/-- A numeral of so many digits is less than that power of two. -/
theorem numeral_lt (ds : List Bool) : numeral ds < 2 ^ ds.length := by
  rw [numeral_eq, ← List.length_reverse]
  exact value_lt _

/-- The last digit says whether a number is odd. -/
theorem numeral_mod_two (ds : List Bool) : ∀ d, numeral (d :: ds) % 2 = (ds.getLastD d).toNat := by
  induction ds with
  | nil => intro d; cases d <;> rfl
  | cons e es ih =>
    intro d
    have hpow : d.toNat * 2 ^ (e :: es).length = 2 * (d.toNat * 2 ^ es.length) := by
      rw [List.length_cons]
      ring
    rw [numeral_cons, hpow, Nat.mul_add_mod, ih e, List.getLastD_cons]

/-! ## Operations -/

/-- The digits of the next number, the least significant one first. -/
def increment : List Bool → List Bool
  | [] => [true]
  | false :: ds => true :: ds
  | true :: ds => false :: increment ds

/-- The next number is greater by one. -/
theorem value_increment (ds : List Bool) : value (increment ds) = value ds + 1 := by
  induction ds with
  | nil => rfl
  | cons d ds ih =>
    cases d with
    | false => simp [increment, value]; omega
    | true => simp [increment, value, ih]; omega

theorem increment_ne_nil (ds : List Bool) : increment ds ≠ [] := by
  cases ds with
  | nil => simp [increment]
  | cons d ds => cases d <;> simp [increment]

/-- The most significant digit of the next number is one if that of the number is. -/
theorem increment_append_true (ds : List Bool) : ∃ es, increment (ds ++ [true]) = es ++ [true] := by
  induction ds with
  | nil => exact ⟨[false], rfl⟩
  | cons d ds ih =>
    cases d with
    | false => exact ⟨true :: ds, rfl⟩
    | true =>
      obtain ⟨es, hes⟩ := ih
      exact ⟨false :: es, by rw [List.cons_append, increment, hes, List.cons_append]⟩

/-- Numbers with equally many digits compare by their first digits, and by the others if these are equal. -/
theorem compare_numeral_cons (a b : Bool) {as bs : List Bool} (h : as.length = bs.length) :
    compare (numeral (a :: as)) (numeral (b :: bs)) = (compare a b).then (compare (numeral as) (numeral bs)) := by
  have ha := numeral_lt as
  have hb := numeral_lt bs
  rw [numeral_cons, numeral_cons, h]
  rw [h] at ha
  cases a with
  | false =>
    cases b with
    | false => simp
    | true =>
      simp only [Bool.toNat_false, Bool.toNat_true, Nat.zero_mul, Nat.one_mul, Nat.zero_add]
      exact Nat.compare_eq_lt.2 (by omega)
  | true =>
    cases b with
    | false =>
      simp only [Bool.toNat_false, Bool.toNat_true, Nat.zero_mul, Nat.one_mul, Nat.zero_add]
      exact Nat.compare_eq_gt.2 (by omega)
    | true =>
      simp only [Bool.toNat_true, Nat.one_mul, Nat.compare_eq_ite_lt, Nat.add_lt_add_iff_left]
      rfl

/-- The digit of a difference, and the borrow to the next digit, for a digit that is taken away, a digit it is taken from and a
borrow. -/
def difference (d w borrow : Bool) : Bool × Bool := (d ^^ w ^^ borrow, (!w && (d || borrow)) || (d && borrow))

/-- The digit of a difference and what it is taken from, with the borrows on both sides. -/
theorem value_difference (d w borrow : Bool) :
    (difference d w borrow).1.toNat + d.toNat + borrow.toNat = w.toNat + 2 * (difference d w borrow).2.toNat := by
  cases d <;> cases w <;> cases borrow <;> rfl

end DispatchTree.Primality
