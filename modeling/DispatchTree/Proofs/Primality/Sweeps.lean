import DispatchTree.Proofs.Primality.Binary
import DispatchTree.Proofs.Primality.Rules

/-!
# Sweeps of the primality tester

Each loop of the tester carries its two heads over digits, one digit at a time. A lemma of this module says what such a sweep does
to digits of any number, by induction on them: comparing (`reaches_comparing`), taking away (`reaches_subtracting`), walking back
(`reaches_returning`), copying (`reaches_copying`) and erasing (`reaches_erasing`).
-/

namespace DispatchTree.Primality

open Strips

@[simp] theorem digits_nil : digits [] = [] := rfl

@[simp] theorem digits_cons (d : Bool) (ds : List Bool) : digits (d :: ds) = digit d :: digits ds := rfl

@[simp] theorem digits_append (as bs : List Bool) : digits (as ++ bs) = digits as ++ digits bs := List.map_append

/-- The state in which the divisor is compared with the window, by how they compare in the digits seen so far. -/
def comparing : Ordering → String
  | .lt => "dless"
  | .eq => "dleq"
  | .gt => "dskip0"

/-- The state in which the divisor is taken away from the window, without or with a borrow. -/
def subtracting : Bool → String
  | false => "sub0"
  | true => "sub1"

/-- Comparing goes left over the divisor and the window, and ends in the state of their comparison. -/
theorem reaches_comparing (ds : List Bool) : ∀ (ws : List Bool) (o : Ordering) (l1 r1 l2 r2 : List Symbol),
    ds.length = ws.length → l1 ≠ [] → l2 ≠ [] →
    Reaches machine ⟨comparing o, .back (digits ds ++ l1) r1, .back (digits ws ++ l2) r2⟩
      ⟨comparing (o.then (compare (numeral ds) (numeral ws))), .back l1 (digits ds.reverse ++ r1),
        .back l2 (digits ws.reverse ++ r2)⟩ := by
  induction ds with
  | nil =>
    intro ws o l1 r1 l2 r2 hlen _ _
    obtain rfl : ws = [] := List.eq_nil_of_length_eq_zero hlen.symm
    have hthen : o.then (compare (numeral []) (numeral [])) = o := by cases o <;> rfl
    rw [hthen]
    exact Reaches.refl _ _
  | cons d ds ih =>
    intro ws o l1 r1 l2 r2 hlen h1 h2
    obtain ⟨w, ws, rfl⟩ : ∃ w ws', ws = w :: ws' := List.exists_cons_of_length_pos (by simp at hlen; omega)
    have hlen' : ds.length = ws.length := by simpa using hlen
    have hrule : (comparing o, (⟨digit d, digit w⟩ : SymbolPair),
        (⟨comparing (o.then (compare d w)), ⟨digit d, .left⟩, ⟨digit w, .left⟩⟩ : Action)) ∈ rules := by
      cases o <;> cases d <;> cases w <;> decide
    have hstep := reaches_rule hrule (Strip.act_left (l := digits ds ++ l1) (by simp [h1]) r1 _ _)
      (Strip.act_left (l := digits ws ++ l2) (by simp [h2]) r2 _ _)
    have hrest := ih ws (o.then (compare d w)) l1 (digit d :: r1) l2 (digit w :: r2) hlen' h1 h2
    rw [Ordering.then_assoc, ← compare_numeral_cons d w hlen'] at hrest
    simpa using hstep.trans hrest

/-- Taking away goes right over the divisor and the window, and leaves the difference and the borrow. -/
theorem reaches_subtracting (ds : List Bool) : ∀ (ws : List Bool) (borrow : Bool) (l1 r1 l2 r2 : List Symbol),
    ds.length = ws.length → ∃ vs left, vs.length = ws.length ∧
      value vs + value ds + borrow.toNat = value ws + 2 ^ ws.length * left.toNat ∧
      Reaches machine ⟨subtracting borrow, ⟨l1, digits ds ++ r1⟩, ⟨l2, digits ws ++ r2⟩⟩
        ⟨subtracting left, ⟨digits ds.reverse ++ l1, r1⟩, ⟨digits vs.reverse ++ l2, r2⟩⟩ := by
  induction ds with
  | nil =>
    intro ws borrow l1 r1 l2 r2 hlen
    obtain rfl : ws = [] := List.eq_nil_of_length_eq_zero hlen.symm
    exact ⟨[], borrow, rfl, by simp [value], Reaches.refl _ _⟩
  | cons d ds ih =>
    intro ws borrow l1 r1 l2 r2 hlen
    obtain ⟨w, ws, rfl⟩ : ∃ w ws', ws = w :: ws' := List.exists_cons_of_length_pos (by simp at hlen; omega)
    have hlen' : ds.length = ws.length := by simpa using hlen
    obtain ⟨vs, left, hvs, hvalue, hrest⟩ := ih ws (difference d w borrow).2 (digit d :: l1) r1
      (digit (difference d w borrow).1 :: l2) r2 hlen'
    have hrule : (subtracting borrow, (⟨digit d, digit w⟩ : SymbolPair),
        (⟨subtracting (difference d w borrow).2, ⟨digit d, .right⟩, ⟨digit (difference d w borrow).1, .right⟩⟩ : Action)) ∈
        rules := by
      cases borrow <;> cases d <;> cases w <;> decide
    have hstep := reaches_rule hrule (Strip.act_right l1 (digits ds ++ r1) _ _) (Strip.act_right l2 (digits ws ++ r2) _ _)
    refine ⟨(difference d w borrow).1 :: vs, left, by simp [hvs], ?_, by simpa using hstep.trans hrest⟩
    have hdigit := value_difference d w borrow
    have hpow : 2 ^ (w :: ws).length * left.toNat = 2 * (2 ^ ws.length * left.toNat) := by
      rw [List.length_cons]
      ring
    rw [hpow]
    simp only [value]
    omega

/-- Walking back goes right over the divisor and the window and changes nothing. -/
theorem reaches_returning (ds : List Bool) : ∀ (ws : List Bool) (l1 r1 l2 r2 : List Symbol), ds.length = ws.length →
    Reaches machine ⟨"dskip1", ⟨l1, digits ds ++ r1⟩, ⟨l2, digits ws ++ r2⟩⟩
      ⟨"dskip1", ⟨digits ds.reverse ++ l1, r1⟩, ⟨digits ws.reverse ++ l2, r2⟩⟩ := by
  induction ds with
  | nil =>
    intro ws l1 r1 l2 r2 hlen
    obtain rfl : ws = [] := List.eq_nil_of_length_eq_zero hlen.symm
    exact Reaches.refl _ _
  | cons d ds ih =>
    intro ws l1 r1 l2 r2 hlen
    obtain ⟨w, ws, rfl⟩ : ∃ w ws', ws = w :: ws' := List.exists_cons_of_length_pos (by simp at hlen; omega)
    have hrule : ("dskip1", (⟨digit d, digit w⟩ : SymbolPair), (⟨"dskip1", ⟨digit d, .right⟩, ⟨digit w, .right⟩⟩ : Action)) ∈
        rules := by
      cases d <;> cases w <;> decide
    have hstep := reaches_rule hrule (Strip.act_right l1 (digits ds ++ r1) _ _) (Strip.act_right l2 (digits ws ++ r2) _ _)
    simpa using hstep.trans (ih ws (digit d :: l1) r1 (digit w :: l2) r2 (by simpa using hlen))

/-- Copying goes right over digits and writes them on the blanks of the second track, going left. The state after a digit may
depend on the digit. -/
theorem reaches_copying (state : Bool → String)
    (hrule : ∀ last d, (state last, (⟨digit d, .blank⟩ : SymbolPair),
      (⟨state d, ⟨digit d, .right⟩, ⟨digit d, .left⟩⟩ : Action)) ∈ rules)
    (ds : List Bool) : ∀ (last : Bool) (l1 r1 l2 r2 : List Symbol), l2 ≠ [] →
    Reaches machine ⟨state last, ⟨l1, digits ds ++ r1⟩, .back (List.replicate ds.length .blank ++ l2) r2⟩
      ⟨state (ds.getLastD last), ⟨digits ds.reverse ++ l1, r1⟩, .back l2 (digits ds.reverse ++ r2)⟩ := by
  induction ds with
  | nil => intro last l1 r1 l2 r2 _; exact Reaches.refl _ _
  | cons d ds ih =>
    intro last l1 r1 l2 r2 h2
    have hstep := reaches_rule (hrule last d) (Strip.act_right l1 (digits ds ++ r1) _ _)
      (Strip.act_left (l := List.replicate ds.length .blank ++ l2) (by simp [h2]) r2 _ _)
    have hrest := ih d (digit d :: l1) r1 l2 (digit d :: r2) h2
    rw [List.getLastD_cons]
    simpa [List.replicate_succ] using hstep.trans hrest

/-- Erasing goes left over the number and puts blanks on as many digits of the second track, going right. -/
theorem reaches_erasing (xs : List Bool) : ∀ (ws : List Bool) (l1 r1 l2 r2 : List Symbol), xs.length = ws.length → l1 ≠ [] →
    Reaches machine ⟨"copy0", .back (digits xs ++ l1) r1, ⟨l2, digits ws ++ r2⟩⟩
      ⟨"copy0", .back l1 (digits xs.reverse ++ r1), ⟨List.replicate xs.length .blank ++ l2, r2⟩⟩ := by
  induction xs with
  | nil =>
    intro ws l1 r1 l2 r2 hlen _
    obtain rfl : ws = [] := List.eq_nil_of_length_eq_zero hlen.symm
    exact Reaches.refl _ _
  | cons x xs ih =>
    intro ws l1 r1 l2 r2 hlen h1
    obtain ⟨w, ws, rfl⟩ : ∃ w ws', ws = w :: ws' := List.exists_cons_of_length_pos (by simp at hlen; omega)
    have hrule : ("copy0", (⟨digit x, digit w⟩ : SymbolPair), (⟨"copy0", ⟨digit x, .left⟩, ⟨.blank, .right⟩⟩ : Action)) ∈
        rules := by
      cases x <;> cases w <;> decide
    have hstep := reaches_rule hrule (Strip.act_left (l := digits xs ++ l1) (by simp [h1]) r1 _ _)
      (Strip.act_right l2 (digits ws ++ r2) _ _)
    have hrest := ih ws l1 (digit x :: r1) (.blank :: l2) r2 (by simpa using hlen) h1
    simpa [List.replicate_succ'] using hstep.trans hrest

end DispatchTree.Primality
