import Mathlib.Algebra.Group.Nat.Defs
import DispatchTree.Number.Literal

/-!
# Decimal digits

A number is the value of its digits (`digitsValue_toDigits`), and digits are those of their value exactly if they are plain, with a
zero in front only where it stands alone (`toDigits_digitsValue_iff`).
-/

namespace DispatchTree

/-- A digit is worth less than ten. -/
theorem digitValue_lt {c : Char} (h : c.isDigit = true) : digitValue c < 10 := by
  obtain ⟨hlow, hhigh⟩ := Char.isDigit_iff_toNat.1 h
  have hnine : '9'.toNat = '0'.toNat + 9 := rfl
  unfold digitValue
  omega

/-- A digit is the character for its value. -/
theorem digitChar_digitValue {c : Char} (h : c.isDigit = true) : Nat.digitChar (digitValue c) = c := by
  obtain ⟨hlow, -⟩ := Char.isDigit_iff_toNat.1 h
  have hzero : '0'.toNat = 48 := rfl
  apply Char.toNat_inj.1
  rw [Nat.toNat_digitChar_of_lt_ten (digitValue_lt h), digitValue]
  omega

/-- Digits behind a number other than zero are the last digits of the number that they make of it. -/
theorem toDigits_ofDigitChars {ds : List Char} (hds : ∀ c ∈ ds, c.isDigit = true) {n : Nat} (hn : 0 < n) :
    Nat.toDigits 10 (Nat.ofDigitChars 10 ds n) = Nat.toDigits 10 n ++ ds := by
  induction ds generalizing n with
  | nil => rw [Nat.ofDigitChars_nil, List.append_nil]
  | cons c ds ih =>
    rw [List.forall_mem_cons] at hds
    have hstep : Nat.toDigits 10 (10 * n + digitValue c) = Nat.toDigits 10 n ++ [c] := by
      rw [← Nat.toDigits_append_toDigits (by decide) hn (digitValue_lt hds.1), Nat.toDigits_of_lt_base (digitValue_lt hds.1),
        digitChar_digitValue hds.1]
    have hpos : 0 < 10 * n + digitValue c := by omega
    calc Nat.toDigits 10 (Nat.ofDigitChars 10 (c :: ds) n)
        = Nat.toDigits 10 (Nat.ofDigitChars 10 ds (10 * n + digitValue c)) := by rw [Nat.ofDigitChars_cons, digitValue]
      _ = Nat.toDigits 10 n ++ c :: ds := by rw [ih hds.2 hpos, hstep, List.append_assoc, List.singleton_append]

/-- A number with digits put behind it is less than the next number with as many zeros behind it. -/
theorem ofDigitChars_lt {ds : List Char} (hds : ∀ c ∈ ds, c.isDigit = true) (n : Nat) :
    Nat.ofDigitChars 10 ds n < (n + 1) * 10 ^ ds.length := by
  induction ds generalizing n with
  | nil => simp
  | cons c ds ih =>
    rw [List.forall_mem_cons] at hds
    have hc := digitValue_lt hds.1
    calc Nat.ofDigitChars 10 (c :: ds) n
        = Nat.ofDigitChars 10 ds (10 * n + digitValue c) := by rw [Nat.ofDigitChars_cons, digitValue]
      _ < (10 * n + digitValue c + 1) * 10 ^ ds.length := ih hds.2 _
      _ ≤ ((n + 1) * 10) * 10 ^ ds.length := Nat.mul_le_mul_right _ (by omega)
      _ = (n + 1) * 10 ^ (c :: ds).length := by rw [List.length_cons, Nat.pow_succ', Nat.mul_assoc]

/-- Digits without idle zeros: a zero is in front only if it stands alone. -/
def isPlainDigits (ds : List Char) : Bool := ds == ['0'] || ds.head? != some '0'

/-- The digits of a number are printed as they are written exactly if they are plain. -/
theorem toDigits_digitsValue_iff {ds : List Char} (hne : ds ≠ []) (hds : ∀ c ∈ ds, c.isDigit = true) :
    Nat.toDigits 10 (digitsValue ds) = ds ↔ isPlainDigits ds = true := by
  obtain ⟨c, ds, rfl⟩ := List.exists_cons_of_ne_nil hne
  rw [List.forall_mem_cons] at hds
  have hvalue : digitsValue (c :: ds) = Nat.ofDigitChars 10 ds (digitValue c) := by
    show Nat.ofDigitChars 10 ds (10 * 0 + digitValue c) = _
    rw [Nat.mul_zero, Nat.zero_add]
  by_cases hc : c = '0'
  · subst hc
    have hplain : isPlainDigits ('0' :: ds) = true ↔ ds = [] := by simp [isPlainDigits]
    rw [hplain, hvalue]
    constructor
    · intro h
      refine Decidable.byContradiction fun hne => ?_
      -- the value of the digits behind the zero has at most as many digits
      have hlt := ofDigitChars_lt hds.2 0
      rw [Nat.zero_add, Nat.one_mul] at hlt
      have hlength := (Nat.length_toDigits_le_iff (by decide) (List.length_pos_iff.2 hne)).2 hlt
      rw [show digitValue '0' = 0 from rfl] at h
      rw [h, List.length_cons] at hlength
      omega
    · rintro rfl
      rfl
  · have hplain : isPlainDigits (c :: ds) = true := by simp [isPlainDigits, hc]
    have hpos : 0 < digitValue c := by
      rw [Nat.pos_iff_ne_zero]
      intro hzero
      apply hc
      rw [← digitChar_digitValue hds.1, hzero]
      rfl
    rw [hvalue, toDigits_ofDigitChars hds.2 hpos, Nat.toDigits_of_lt_base (digitValue_lt hds.1), digitChar_digitValue hds.1]
    simp [hplain]

/-- The digits of a number stand for the number. -/
theorem digitsValue_toDigits (n : Nat) : digitsValue (Nat.toDigits 10 n) = n := Nat.ofDigitChars_ten_toDigits

/-- Numbers are written without idle zeros. -/
theorem isPlainDigits_toDigits (n : Nat) : isPlainDigits (Nat.toDigits 10 n) = true := by
  have hdigits : ∀ c ∈ Nat.toDigits 10 n, c.isDigit = true := fun c hc => Nat.isDigit_of_mem_toDigits (by decide) (by decide) hc
  rw [← toDigits_digitsValue_iff Nat.toDigits_ne_nil hdigits, digitsValue_toDigits]

end DispatchTree
