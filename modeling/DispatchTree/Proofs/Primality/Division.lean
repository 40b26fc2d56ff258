import DispatchTree.Proofs.Primality.Sweeps

/-!
# Division by the tester

The divisor is compared with a window of the number, of the same width, and taken away if it is not greater; then the window moves
one digit down. Above the window there may be one digit more, which then counts: a window never comes to twice the divisor. One
round leaves the remainder of the window (`reaches_shift`) and brings a digit down (`reaches_round`); by induction on the digits
not yet brought down, the tester finds out whether the divisor divides the number (`reaches_division`), provided the number is
odd.
-/

namespace DispatchTree.Primality

open Strips

/-- The comparison with which a window begins: the digit above it, if it is one, makes the divisor smaller. -/
def onset (used : List Bool) : Ordering := bif used.headD false then .lt else .eq

/-- What the window and the digit above it stand for. -/
def windowValue (ws used : List Bool) : Nat := (used.headD false).toNat * 2 ^ ws.length + numeral ws

/-- The divisor on the first track and a window on the second, with both heads on the first digits; behind the window the digits
not yet brought down, above it those that have been used. -/
def dividing (ds ws low used : List Bool) (l1 r1 l2 r2 : List Symbol) : Strips :=
  ⟨comparing (onset used), .back (digits ds ++ .blank :: l1) (.blank :: r1),
    .back (digits ws ++ (digits low ++ .blank :: l2)) (digits used ++ .blank :: r2)⟩

/-- The digits above a window once the window is smaller than the divisor: the nearest one, if there is one, is zero. -/
def lowered : List Bool → List Bool
  | [] => []
  | _ :: used => false :: used

/-- Lowering keeps the number of digits. -/
theorem length_lowered (used : List Bool) : (lowered used).length = used.length := by cases used <;> rfl

section

variable {ds ws : List Bool} (used : List Bool)

/-- The comparison of the divisor with the window and the digit above it. -/
theorem onset_then (h : ds.length = ws.length) :
    (onset used).then (compare (numeral ds) (numeral ws)) = compare (numeral ds) (windowValue ws used) := by
  have hlt := numeral_lt ds
  unfold onset windowValue
  cases hu : used.headD false with
  | false => simp
  | true =>
    symm
    rw [h] at hlt
    simp only [Bool.toNat_true, Nat.one_mul, cond_true]
    exact Nat.compare_eq_lt.2 (by omega)

/-- Comparing on the tracks of a division. -/
theorem reaches_compared (h : ds.length = ws.length) (low : List Bool) (l1 r1 l2 r2 : List Symbol) :
    Reaches machine (dividing ds ws low used l1 r1 l2 r2)
      ⟨comparing (compare (numeral ds) (windowValue ws used)), ⟨l1, .blank :: (digits ds.reverse ++ .blank :: r1)⟩,
        .back (digits low ++ .blank :: l2) (digits ws.reverse ++ (digits used ++ .blank :: r2))⟩ := by
  rw [← onset_then used h]
  exact reaches_comparing ds ws (onset used) (.blank :: l1) (.blank :: r1) (digits low ++ .blank :: l2)
    (digits used ++ .blank :: r2) h (by simp) (by simp)

/-- The borrow left over by the window is taken from the digit above it. -/
theorem reaches_borrowed {l1 l2 : List Symbol} (h1 : l1 ≠ []) (h2 : l2 ≠ []) (r1 r2 : List Symbol) :
    Reaches machine ⟨subtracting (used.headD false), ⟨l1, .blank :: r1⟩, ⟨l2, digits used ++ .blank :: r2⟩⟩
      ⟨"shift", .back l1 (.blank :: r1), .back l2 (digits (lowered used) ++ .blank :: r2)⟩ := by
  cases used with
  | nil =>
    have hrule : ("sub0", (⟨.blank, .blank⟩ : SymbolPair), (⟨"shift", ⟨.blank, .left⟩, ⟨.blank, .left⟩⟩ : Action)) ∈ rules := by
      decide
    exact reaches_rule hrule (Strip.act_left h1 r1 _ _) (Strip.act_left h2 r2 _ _)
  | cons u used =>
    have hrule : (subtracting u, (⟨.blank, digit u⟩ : SymbolPair), (⟨"shift", ⟨.blank, .left⟩, ⟨digit false, .left⟩⟩ : Action)) ∈
        rules := by
      cases u <;> decide
    exact reaches_rule hrule (Strip.act_left h1 r1 _ _) (Strip.act_left h2 (digits used ++ .blank :: r2) _ _)

/-- Where the divisor is not greater than the window, it is taken away. -/
theorem reaches_taken (h : ds.length = ws.length) (hle : numeral ds ≤ windowValue ws used)
    (hlt : windowValue ws used < 2 * numeral ds) (c : Bool) (low : List Bool) (l1 r1 l2 r2 : List Symbol) :
    ∃ vs, vs.length = ws.length ∧ numeral vs = windowValue ws used - numeral ds ∧
      Reaches machine (dividing ds ws (c :: low) used l1 r1 l2 r2)
        ⟨"shift", .back (digits ds ++ .blank :: l1) (.blank :: r1),
          .back (digits vs ++ (digit c :: (digits low ++ .blank :: l2))) (digits (lowered used) ++ .blank :: r2)⟩ := by
  have hcompared := reaches_compared used h (c :: low) l1 r1 l2 r2
  have hrule : ∀ o : Ordering, o ≠ .gt → (comparing o, (⟨.blank, digit c⟩ : SymbolPair),
      (⟨"sub0", ⟨.blank, .right⟩, ⟨digit c, .right⟩⟩ : Action)) ∈ rules := by
    intro o ho
    cases o with
    | lt => cases c <;> decide
    | eq => cases c <;> decide
    | gt => exact absurd rfl ho
  have hturn := reaches_rule (hrule _ (Nat.compare_ne_gt.2 hle)) (Strip.act_right l1 (digits ds.reverse ++ .blank :: r1) _ _)
    (Strip.act_right (digits low ++ .blank :: l2) (digits ws.reverse ++ (digits used ++ .blank :: r2)) _ _)
  obtain ⟨vs, left, hvs, hvalue, hsub⟩ := reaches_subtracting ds.reverse ws.reverse false (.blank :: l1) (.blank :: r1)
    (digit c :: (digits low ++ .blank :: l2)) (digits used ++ .blank :: r2) (by simp [h])
  have hds := numeral_lt ds
  have hlen := value_lt vs
  rw [hvs, List.length_reverse] at hlen
  rw [h] at hds
  rw [← numeral_eq, ← numeral_eq, List.length_reverse, Bool.toNat_false, Nat.add_zero] at hvalue
  unfold windowValue at hle hlt ⊢
  -- the difference fits into the window, so a borrow is left exactly if there is a one above the window
  have hleft : left = used.headD false := by
    cases left <;> cases hu : used.headD false <;> simp only [hu, Bool.toNat_false, Bool.toNat_true, Nat.mul_zero, Nat.mul_one,
      Nat.zero_mul, Nat.one_mul] at hvalue hle hlt ⊢ <;> omega
  rw [List.reverse_reverse, hleft] at hsub
  refine ⟨vs.reverse, by simpa using hvs, ?_, hcompared.trans (hturn.trans (hsub.trans ?_))⟩
  · rw [numeral_eq, List.reverse_reverse, ← hleft, Nat.mul_comm]
    omega
  · exact reaches_borrowed used (by simp) (by simp) r1 r2

/-- Where the divisor is greater than the window, the heads walk back over it. -/
theorem reaches_kept (h : ds.length = ws.length) (hlt : windowValue ws used < numeral ds) (c : Bool) (low : List Bool)
    (l1 r1 l2 r2 : List Symbol) :
    Reaches machine (dividing ds ws (c :: low) used l1 r1 l2 r2)
      ⟨"shift", .back (digits ds ++ .blank :: l1) (.blank :: r1),
        .back (digits ws ++ (digit c :: (digits low ++ .blank :: l2))) (digits used ++ .blank :: r2)⟩ := by
  have hcompared := reaches_compared used h (c :: low) l1 r1 l2 r2
  rw [Nat.compare_eq_gt.2 hlt] at hcompared
  have hrule : (comparing .gt, (⟨.blank, digit c⟩ : SymbolPair), (⟨"dskip1", ⟨.blank, .right⟩, ⟨digit c, .right⟩⟩ : Action)) ∈
      rules := by
    cases c <;> decide
  have hturn := reaches_rule hrule (Strip.act_right l1 (digits ds.reverse ++ .blank :: r1) _ _)
    (Strip.act_right (digits low ++ .blank :: l2) (digits ws.reverse ++ (digits used ++ .blank :: r2)) _ _)
  have hback := reaches_returning ds.reverse ws.reverse (.blank :: l1) (.blank :: r1) (digit c :: (digits low ++ .blank :: l2))
    (digits used ++ .blank :: r2) (by simp [h])
  rw [List.reverse_reverse, List.reverse_reverse] at hback
  refine hcompared.trans (hturn.trans (hback.trans ?_))
  have hend : ∀ x : Symbol, ("dskip1", (⟨.blank, x⟩ : SymbolPair), (⟨"shift", ⟨.blank, .left⟩, ⟨x, .left⟩⟩ : Action)) ∈ rules := by
    intro x
    cases x <;> decide
  obtain ⟨x, rest, hx⟩ : ∃ x rest, digits used ++ .blank :: r2 = x :: rest := List.exists_cons_of_ne_nil (by simp)
  rw [hx]
  exact reaches_rule (hend x) (Strip.act_left (by simp) r1 _ _) (Strip.act_left (by simp) rest _ _)

/-- Up to the shift of the window, the window becomes its remainder. -/
theorem reaches_shift (h : ds.length = ws.length) (hlt : windowValue ws used < 2 * numeral ds) (c : Bool) (low : List Bool)
    (l1 r1 l2 r2 : List Symbol) :
    ∃ vs used', vs.length = ws.length ∧ used'.length = used.length ∧ numeral vs = windowValue ws used % numeral ds ∧
      Reaches machine (dividing ds ws (c :: low) used l1 r1 l2 r2)
        ⟨"shift", .back (digits ds ++ .blank :: l1) (.blank :: r1),
          .back (digits vs ++ (digit c :: (digits low ++ .blank :: l2))) (digits used' ++ .blank :: r2)⟩ := by
  by_cases hle : numeral ds ≤ windowValue ws used
  · obtain ⟨vs, hvs, hvalue, hreach⟩ := reaches_taken used h hle hlt c low l1 r1 l2 r2
    refine ⟨vs, lowered used, hvs, length_lowered used, ?_, hreach⟩
    rw [hvalue, Nat.mod_eq_sub_mod hle, Nat.mod_eq_of_lt (by omega)]
  · have hds := numeral_lt ds
    rw [h] at hds
    refine ⟨ws, used, rfl, rfl, ?_, reaches_kept used h (by omega) c low l1 r1 l2 r2⟩
    rw [Nat.mod_eq_of_lt (by omega)]
    unfold windowValue at hle ⊢
    cases hu : used.headD false with
    | false => simp
    | true =>
      rw [hu, Bool.toNat_true, Nat.one_mul] at hle
      omega

/-- One round: the window becomes its remainder, and a digit is brought down. -/
theorem reaches_round (h : ds.length = ws.length) (hlt : windowValue ws used < 2 * numeral ds) (c : Bool) (low : List Bool)
    (l1 r1 l2 r2 : List Symbol) :
    ∃ ws' used', ws'.length = ws.length ∧ used'.length = used.length + 1 ∧
      windowValue ws' used' = 2 * (windowValue ws used % numeral ds) + c.toNat ∧
      Reaches machine (dividing ds ws (c :: low) used l1 r1 l2 r2) (dividing ds ws' low used' l1 r1 l2 r2) := by
  obtain ⟨vs, used', hvs, hused, hvalue, hreach⟩ := reaches_shift used h hlt c low l1 r1 l2 r2
  cases ds with
  | nil => simp [numeral] at hlt
  | cons a ds =>
    cases vs with
    | nil => rw [← h] at hvs; cases hvs
    | cons t us =>
      have hrule : ("shift", (⟨digit a, digit t⟩ : SymbolPair),
          (⟨comparing (onset (t :: used')), ⟨digit a, .stay⟩, ⟨digit t, .left⟩⟩ : Action)) ∈ rules := by
        simp only [onset, List.headD_cons]
        cases a <;> cases t <;> decide
      have hlen : us.length + 1 = ws.length := hvs
      refine ⟨us ++ [c], t :: used', by simpa using hlen, by simpa using hused, ?_, hreach.trans ?_⟩
      · rw [← hvalue, numeral_cons, windowValue, numeral_append_singleton, List.headD_cons, List.length_append,
          List.length_singleton, Nat.pow_succ]
        ring
      · have hstep := reaches_rule hrule (Strip.act_stay (digits ds ++ .blank :: l1) (.blank :: r1) _ _)
          (Strip.act_left (l := digits us ++ (digit c :: (digits low ++ .blank :: l2))) (by simp) (digits used' ++ .blank :: r2) _ _)
        simpa [dividing] using hstep

end

/-- Division of an odd number. The number is the window followed by the digits not yet brought down; if the divisor divides it,
the tester rejects, and if not, it turns to restoring the second track, on which there are as many digits as before. -/
theorem reaches_division {ds : List Bool} (low : List Bool) : ∀ (ws used : List Bool) {l1 : List Symbol} (r1 l2 r2 : List Symbol),
    l1 ≠ [] → ds.length = ws.length → windowValue ws used < 2 * numeral ds →
    (windowValue ws used * 2 ^ low.length + numeral low) % 2 = 1 →
    (numeral ds ∣ windowValue ws used * 2 ^ low.length + numeral low →
      ∃ one two, Reaches machine (dividing ds ws low used l1 r1 l2 r2) ⟨"notprime", one, two⟩) ∧
    (¬ numeral ds ∣ windowValue ws used * 2 ^ low.length + numeral low →
      ∃ ys : List Bool, ys.length = ws.length + low.length + used.length ∧
        Reaches machine (dividing ds ws low used l1 r1 l2 r2)
          ⟨"copy0", .back l1 (.blank :: (digits ds.reverse ++ .blank :: r1)), ⟨.blank :: l2, digits ys ++ .blank :: r2⟩⟩) := by
  induction low with
  | nil =>
    intro ws used l1 r1 l2 r2 h1 h hlt hodd
    have hcompared := reaches_compared used h [] l1 r1 l2 r2
    have hnumeral : numeral [] = 0 := rfl
    simp only [List.length_nil, Nat.pow_zero, Nat.mul_one, hnumeral, Nat.add_zero] at hodd ⊢
    refine ⟨fun hdvd => ?_, fun hdvd => ⟨ws.reverse ++ used, by simp, hcompared.trans ?_⟩⟩
    · have heq : numeral ds = windowValue ws used := by
        -- an odd number below twice the divisor is a multiple of it only if it is the divisor
        obtain ⟨q, hq⟩ := hdvd
        have hq2 : numeral ds * q < numeral ds * 2 := by omega
        have hq1 : q < 2 := Nat.lt_of_mul_lt_mul_left hq2
        match q, hq1 with
        | 0, _ => omega
        | 1, _ => omega
      rw [Nat.compare_eq_eq.2 heq] at hcompared
      have hrule : (comparing .eq, (⟨.blank, .blank⟩ : SymbolPair), (⟨"notprime", ⟨.blank, .stay⟩, ⟨.blank, .stay⟩⟩ : Action)) ∈
          rules := by decide
      exact ⟨_, _, hcompared.trans (reaches_rule hrule (Strip.act_stay _ _ _ _) (Strip.act_stay _ _ _ _))⟩
    · have hrule : ∀ o : Ordering, o ≠ .eq → (comparing o, (⟨.blank, .blank⟩ : SymbolPair),
          (⟨"copy0", ⟨.blank, .left⟩, ⟨.blank, .right⟩⟩ : Action)) ∈ rules := by
        intro o ho
        cases o with
        | lt => decide
        | eq => exact absurd rfl ho
        | gt => decide
      have hne : compare (numeral ds) (windowValue ws used) ≠ .eq := by
        intro heq
        exact hdvd (Nat.compare_eq_eq.1 heq ▸ Nat.dvd_refl _)
      rw [digits_append, List.append_assoc]
      exact reaches_rule (hrule _ hne) (Strip.act_left h1 _ _ _) (Strip.act_right l2 _ _ _)
  | cons c low ih =>
    intro ws used l1 r1 l2 r2 h1 h hlt hodd
    obtain ⟨ws', used', hws, hused, hvalue, hreach⟩ := reaches_round used h hlt c low l1 r1 l2 r2
    -- the number after the round is smaller by a multiple of the divisor and of two
    have hnumber : windowValue ws used * 2 ^ (c :: low).length + numeral (c :: low) =
        (windowValue ws' used' * 2 ^ low.length + numeral low) +
          numeral ds * (2 * (windowValue ws used / numeral ds * 2 ^ low.length)) := by
      rw [hvalue, numeral_cons, List.length_cons]
      conv_lhs => rw [← Nat.div_add_mod (windowValue ws used) (numeral ds)]
      ring
    have hlt' : windowValue ws' used' < 2 * numeral ds := by
      have hmod : windowValue ws used % numeral ds < numeral ds := Nat.mod_lt _ (by omega)
      have hc := c.toNat_le
      omega
    have hodd' : (windowValue ws' used' * 2 ^ low.length + numeral low) % 2 = 1 := by
      rw [hnumber, Nat.mul_left_comm] at hodd
      omega
    obtain ⟨hyes, hno⟩ := ih ws' used' r1 l2 r2 h1 (by rw [h, hws]) hlt' hodd'
    rw [hnumber, Nat.dvd_add_left (Nat.dvd_mul_right _ _)]
    refine ⟨fun hdvd => ?_, fun hdvd => ?_⟩
    · obtain ⟨one, two, hrest⟩ := hyes hdvd
      exact ⟨one, two, hreach.trans hrest⟩
    · obtain ⟨ys, hys, hrest⟩ := hno hdvd
      refine ⟨ys, ?_, hreach.trans hrest⟩
      rw [hys, hws, hused, List.length_cons]
      omega

end DispatchTree.Primality
