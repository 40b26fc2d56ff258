import Mathlib.Data.Nat.Prime.Basic
import DispatchTree.Proofs.Primality.Trial

/-!
# The tester decides primality

From the tracks before a trial on, the tester comes to the right verdict (`reaches_verdict`): it tries the divisors one after the
other and accepts once they are past the square root. What comes before, on the number as it was typed, settles the numbers with
fewer than three digits and the even ones (`reaches_start`). The completed table of the tester hence decides primality on tracks
without ends (`tester_decides_primality`).
-/

namespace DispatchTree.Primality

open Strips

/-- The state in which the tester stops on a number. -/
def verdict (n : Nat) : String := if n.Prime then "prime" else "notprime"

/-- The tester stops in the states of its verdicts. -/
theorem stops_verdict (n : Nat) : machine.stops (verdict n) = true := by
  unfold Machine.stops verdict
  rw [machine_eq, Machine.halts_addRules]
  split <;> simp [frame, Machine.new, Machine.withPrompt, Machine.halt]

/-- A number without divisors from two up to `d` and smaller than the square of the next one is prime. -/
theorem prime_of_tried {x d : Nat} (hx : 2 ≤ x) (htried : ∀ e, 2 ≤ e → e ≤ d → ¬ e ∣ x)
    (hlt : x < (d + 1) * (d + 1)) : x.Prime := by
  rw [Nat.prime_def_le_sqrt]
  refine ⟨hx, fun e he hsqrt hdvd => ?_⟩
  have hle : e * e ≤ x := Nat.le_sqrt.1 hsqrt
  have hed : e < d + 1 := Nat.mul_self_lt_mul_self_iff.1 (by omega)
  exact htried e he (by omega) hdvd

/-- The trials, from a divisor up to which none divides the number. The induction is on how far the divisor is from outrunning the
number. -/
theorem reaches_verdict {xs : List Bool} (hodd : value xs % 2 = 1) (hlen : 3 ≤ xs.length) (htop : 2 ^ (xs.length - 1) ≤ value xs)
    {w : Nat} (hw : xs.length + 4 ≤ 2 * w) (l1 l2 r2 : List Symbol) (j : Nat) : ∀ (ds : List Bool) (m : Nat),
    2 ^ xs.length ≤ value (ds ++ [true]) + j → 2 * (ds ++ [true]).length < xs.length + 2 → (ds ++ [true]).length + m = w →
    (∀ e, 2 ≤ e → e ≤ value (ds ++ [true]) → ¬ e ∣ value xs) →
    ∃ one two, Reaches machine (trying xs (ds ++ [true]) m l1 l2 r2) ⟨verdict (value xs), one, two⟩ := by
  induction j with
  | zero =>
    intro ds m hj hds _ _
    have hlt := value_lt (ds ++ [true])
    have hpow : 2 ^ (ds ++ [true]).length ≤ 2 ^ xs.length := Nat.pow_le_pow_right (by decide) (by omega)
    omega
  | succ j ih =>
    intro ds m hj hds hm htried
    obtain ⟨es, hes⟩ := increment_append_true ds
    have hvalue := value_increment (ds ++ [true])
    obtain ⟨haccept, htry⟩ := reaches_trial (k := w - (es ++ [true]).length - 1) ds hodd (show 0 < m by omega) l1 l2 r2
    rw [hes] at hvalue haccept htry
    have hpos : 1 ≤ value (ds ++ [true]) := Nat.one_le_two_pow.trans (le_value_append_true ds)
    by_cases hpast : xs.length + 2 ≤ 2 * (es ++ [true]).length
    · -- past the square root
      have hprime : (value xs).Prime := by
        have hge := le_value_append_true es
        have hsquare : 2 ^ xs.length ≤ 2 ^ es.length * 2 ^ es.length := by
          rw [← Nat.pow_add]
          exact Nat.pow_le_pow_right (by decide) (by simp at hpast; omega)
        refine prime_of_tried ?_ htried ?_
        · have htwo : 2 ^ 1 ≤ 2 ^ (xs.length - 1) := Nat.pow_le_pow_right (by decide) (by omega)
          omega
        · rw [← hvalue]
          calc value xs < 2 ^ xs.length := value_lt xs
            _ ≤ 2 ^ es.length * 2 ^ es.length := hsquare
            _ ≤ value (es ++ [true]) * value (es ++ [true]) := Nat.mul_le_mul hge hge
      rw [verdict, if_pos hprime]
      exact haccept hpast
    · obtain ⟨hreject, hnext⟩ := htry (by omega) (by omega)
      by_cases hdvd : value (ds ++ [true]) + 1 ∣ value xs
      · have hsmall : value (es ++ [true]) < value xs := by
          calc value (es ++ [true]) < 2 ^ (es ++ [true]).length := value_lt _
            _ ≤ 2 ^ (xs.length - 1) := Nat.pow_le_pow_right (by decide) (by omega)
            _ ≤ value xs := htop
        rw [verdict, if_neg (Nat.not_prime_of_dvd_of_lt hdvd (by omega) (by omega))]
        exact hreject hdvd
      · obtain ⟨one, two, hrest⟩ := ih es (w - (es ++ [true]).length - 1 + 1) (by omega) (by omega) (by omega) fun e he hle => by
          rcases Nat.lt_or_eq_of_le hle with hlt | rfl
          · exact htried e he (by omega)
          · rwa [hvalue]
        exact ⟨one, two, (hnext hdvd).trans hrest⟩

/-! ## Before the trials -/

/-- The state in which the number is copied, by the last digit that was read. -/
def copyingNumber : Bool → String
  | false => "movinit0"
  | true => "movinit1"

/-- The number has been copied to the second track: if it is even the tester rejects, and else it begins with the divisor two. -/
theorem reaches_first_trial {xs : List Bool} (hlen : 3 ≤ xs.length) (htop : 2 ^ (xs.length - 1) ≤ value xs) {last : Bool}
    (hlast : value xs % 2 = last.toNat) {w : Nat} (hw : xs.length + 4 ≤ 2 * w) (l1 l2 : List Symbol) :
    ∃ one two, Reaches machine
      ⟨copyingNumber last, ⟨digits xs ++ .blank :: l1, List.replicate (w + 1) .blank⟩, ⟨l2, .blank :: (digits xs ++ [.blank])⟩⟩
      ⟨verdict (value xs), one, two⟩ := by
  cases last with
  | false =>
    have hfour : 2 ^ 2 ≤ 2 ^ (xs.length - 1) := Nat.pow_le_pow_right (by decide) (by omega)
    have heven : ¬ (value xs).Prime := Nat.not_prime_of_dvd_of_lt (Nat.dvd_of_mod_eq_zero hlast) (by omega) (by omega)
    have hrule : (copyingNumber false, (⟨.blank, .blank⟩ : SymbolPair), (⟨"notprime", ⟨.blank, .right⟩, ⟨.blank, .stay⟩⟩ : Action)) ∈
        rules := by decide
    rw [verdict, if_neg heven]
    exact ⟨_, _, reaches_rule hrule (Strip.act_right _ _ _ _) (Strip.act_stay _ _ _ _)⟩
  | true =>
    obtain ⟨w, rfl⟩ : ∃ v, w = v + 1 := ⟨w - 1, by omega⟩
    have hturn : (copyingNumber true, (⟨.blank, .blank⟩ : SymbolPair), (⟨"initquot", ⟨.blank, .right⟩, ⟨.blank, .stay⟩⟩ : Action)) ∈
        rules := by decide
    have hbegin : ("initquot", (⟨.blank, .blank⟩ : SymbolPair), (⟨"inc0", ⟨.one, .stay⟩, ⟨.blank, .right⟩⟩ : Action)) ∈ rules := by
      decide
    have hstep := (reaches_rule hturn (Strip.act_right (digits xs ++ .blank :: l1) (List.replicate (w + 1) .blank) _ _)
      (Strip.act_stay l2 (digits xs ++ [.blank]) _ _)).trans
      (reaches_rule hbegin (Strip.act_stay _ (List.replicate w .blank) _ _) (Strip.act_right l2 (digits xs ++ [.blank]) _ _))
    obtain ⟨one, two, hrest⟩ := reaches_verdict hlast hlen htop hw l1 l2 [] (2 ^ xs.length) [] w (by omega) (by simp; omega)
      (by simp; omega) fun e he hle => by simp [value] at hle; omega
    exact ⟨one, two, hstep.trans hrest⟩

/-- A number from its first one on. One digit is rejected and two are accepted; of three or more a copy is made. -/
theorem reaches_leading (ys : List Bool) {w c : Nat} (hw : ys.length + 7 ≤ 2 * w) (hc : ys.length < c) (l1 : List Symbol) :
    ∃ one two, Reaches machine
      ⟨"clr0", ⟨.blank :: l1, digits (true :: ys) ++ List.replicate w .blank⟩, ⟨List.replicate c .blank, [.blank, .blank]⟩⟩
      ⟨verdict (numeral (true :: ys)), one, two⟩ := by
  obtain ⟨w, rfl⟩ : ∃ v, w = v + 1 := ⟨w - 1, by omega⟩
  obtain ⟨c, rfl⟩ : ∃ b, c = b + 1 := ⟨c - 1, by omega⟩
  have hfirst : ("clr0", (⟨digit true, .blank⟩ : SymbolPair), (⟨"chk1", ⟨digit true, .right⟩, ⟨digit true, .left⟩⟩ : Action)) ∈
      rules := by
    decide
  have hsecond : ∀ d, ("chk1", (⟨digit d, .blank⟩ : SymbolPair), (⟨"chk2", ⟨digit d, .right⟩, ⟨digit d, .left⟩⟩ : Action)) ∈
      rules := by
    decide
  have hthird : ∀ d, ("chk2", (⟨digit d, .blank⟩ : SymbolPair), (⟨copyingNumber d, ⟨digit d, .right⟩, ⟨digit d, .left⟩⟩ : Action)) ∈
      rules := by decide
  have hcopy : ∀ last d, (copyingNumber last, (⟨digit d, .blank⟩ : SymbolPair),
      (⟨copyingNumber d, ⟨digit d, .right⟩, ⟨digit d, .left⟩⟩ : Action)) ∈ rules := by decide
  have hone := reaches_rule hfirst (Strip.act_right (.blank :: l1) (digits ys ++ List.replicate (w + 1) .blank) _ _)
    (Strip.act_left (l := List.replicate (c + 1) .blank) (by simp) [.blank] _ _)
  match ys with
  | [] =>
    have hrule : ("chk1", (⟨.blank, .blank⟩ : SymbolPair), (⟨"notprime", ⟨.blank, .stay⟩, ⟨.blank, .stay⟩⟩ : Action)) ∈ rules := by
      decide
    rw [verdict, if_neg (by decide)]
    exact ⟨_, _, hone.trans (reaches_rule hrule (Strip.act_stay _ (List.replicate w .blank) _ _)
      (Strip.act_stay (List.replicate c .blank) _ _ _))⟩
  | [a] =>
    have hrule : ("chk2", (⟨.blank, .blank⟩ : SymbolPair), (⟨"prime", ⟨.blank, .right⟩, ⟨.blank, .stay⟩⟩ : Action)) ∈ rules := by
      decide
    have hprime : (numeral [true, a]).Prime := by
      cases a with
      | false => exact Nat.prime_two
      | true => exact Nat.prime_three
    obtain ⟨c, rfl⟩ : ∃ b, c = b + 1 := ⟨c - 1, by simp at hc; omega⟩
    have htwo := reaches_rule (hsecond a) (Strip.act_right (digit true :: .blank :: l1) (List.replicate (w + 1) .blank) _ _)
      (Strip.act_left (l := List.replicate (c + 1) .blank) (by simp) (digit true :: [.blank]) _ _)
    rw [verdict, if_pos hprime]
    exact ⟨_, _, hone.trans (htwo.trans (reaches_rule hrule (Strip.act_right _ (List.replicate w .blank) _ _)
      (Strip.act_stay (List.replicate c .blank) _ _ _)))⟩
  | a :: b :: zs =>
    obtain ⟨e, rfl⟩ : ∃ e, c = (zs.length + (e + 1)) + 1 := ⟨c - zs.length - 2, by simp at hc; omega⟩
    have htwo := reaches_rule (hsecond a) (Strip.act_right (digit true :: .blank :: l1)
      (digits (b :: zs) ++ List.replicate (w + 1) .blank) _ _)
      (Strip.act_left (l := List.replicate (zs.length + (e + 1) + 1) .blank) (by simp) (digit true :: [.blank]) _ _)
    have hthree := reaches_rule (hthird b) (Strip.act_right (digit a :: digit true :: .blank :: l1)
      (digits zs ++ List.replicate (w + 1) .blank) _ _)
      (Strip.act_left (l := List.replicate (zs.length + (e + 1)) .blank) (by simp) (digit a :: digit true :: [.blank]) _ _)
    have hcopied := reaches_copying copyingNumber hcopy zs b (digit b :: digit a :: digit true :: .blank :: l1)
      (List.replicate (w + 1) .blank) (List.replicate (e + 1) .blank) (digit b :: digit a :: digit true :: [.blank]) (by simp)
    rw [List.replicate_append_replicate] at hcopied
    have hvalue : value (true :: a :: b :: zs).reverse = numeral (true :: a :: b :: zs) := (numeral_eq _).symm
    have htop : 2 ^ ((true :: a :: b :: zs).reverse.length - 1) ≤ value (true :: a :: b :: zs).reverse := by
      rw [hvalue, numeral_cons, List.length_reverse, List.length_cons, Bool.toNat_true]
      simp
    have hlast : value (true :: a :: b :: zs).reverse % 2 = (zs.getLastD b).toNat := by
      rw [hvalue, numeral_mod_two, List.getLastD_cons, List.getLastD_cons]
    obtain ⟨one, two, hrest⟩ := reaches_first_trial (by simp) htop hlast (w := w) (by simp at hw ⊢; omega) l1 (List.replicate e .blank)
    rw [hvalue] at hrest
    refine ⟨one, two, hone.trans (htwo.trans (hthree.trans (hcopied.trans ?_)))⟩
    simpa [List.replicate_succ] using hrest

/-- The number as it was typed, with zeros before its first one. -/
theorem reaches_start (xs : List Bool) {w c : Nat} (hw : xs.length + 6 ≤ 2 * w) (hc : xs.length ≤ c) : ∀ l1 : List Symbol,
    ∃ one two, Reaches machine
      ⟨"clr0", ⟨.blank :: l1, digits xs ++ List.replicate w .blank⟩, ⟨List.replicate c .blank, [.blank, .blank]⟩⟩
      ⟨verdict (numeral xs), one, two⟩ := by
  induction xs with
  | nil =>
    intro l1
    obtain ⟨w, rfl⟩ : ∃ v, w = v + 1 := ⟨w - 1, by omega⟩
    have hrule : ("clr0", (⟨.blank, .blank⟩ : SymbolPair), (⟨"notprime", ⟨.blank, .stay⟩, ⟨.blank, .stay⟩⟩ : Action)) ∈ rules := by
      decide
    rw [verdict, if_neg (by decide)]
    exact ⟨_, _, reaches_rule hrule (Strip.act_stay _ (List.replicate w .blank) _ _) (Strip.act_stay _ _ _ _)⟩
  | cons x xs ih =>
    intro l1
    rw [List.length_cons] at hw hc
    cases x with
    | true => exact reaches_leading xs (by omega) (by omega) l1
    | false =>
      have hrule : ("clr0", (⟨digit false, .blank⟩ : SymbolPair), (⟨"clr0", ⟨.blank, .right⟩, ⟨.blank, .stay⟩⟩ : Action)) ∈
          rules := by decide
      have hstep := reaches_rule hrule (Strip.act_right (.blank :: l1) (digits xs ++ List.replicate w .blank) _ _)
        (Strip.act_stay (List.replicate c .blank) [.blank] _ _)
      obtain ⟨one, two, hrest⟩ := ih (by omega) (by omega) (.blank :: l1)
      have hzero : numeral (false :: xs) = numeral xs := by simp [numeral]
      rw [hzero]
      exact ⟨one, two, hstep.trans hrest⟩

/-- The completed table of the tester decides primality. On every word of binary digits, written on tracks without ends, it comes
to a terminal state after finitely many steps, and that is the accepting state if the number the word stands for is prime, and the
rejecting state if not. -/
theorem tester_decides_primality (xs : List Bool) :
    ∃ n c, after machine.complete.advance? n (.start machine.complete.initial (digits xs)) = some c ∧
      machine.complete.isTerminal c.state = true ∧
      c.state = if (numeral xs).Prime then "prime" else "notprime" := by
  obtain ⟨one, two, hreach⟩ := reaches_start xs (w := xs.length / 2 + 4) (c := xs.length) (by omega) (by omega) []
  rw [← machine_initial] at hreach
  obtain ⟨n, c, hc, hstate⟩ := Reaches.complete (a := 1) (d := 2) hreach
  refine ⟨n, c, hc, ?_, hstate⟩
  rw [machine.complete_isTerminal, hstate, stops_verdict]

end DispatchTree.Primality
