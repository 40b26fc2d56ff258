import DispatchTree.Proofs.Number.Digits
import DispatchTree.Settings

/-!
# Texts of variables as texts of values

The text of a variable is taken for the simplest value that it denotes. Where a text is asked for, this value is printed again
(`asText?_variableValue`): a truth value in lower case, a whole number without a plus sign and idle zeros, and any other number as the
shortest decimal that denotes it. So a text comes out as it went in exactly if it is written like that, or denotes none of these
(`printed_eq_iff`). A text with a character that no number has does, unless it is a truth value (`printed_of_char`).
-/

namespace DispatchTree

/-! ## Whole numbers -/

/-- A text with a minus sign, with a plus sign, or without a sign. -/
theorem splitSign_cases (cs : List Char) :
    (∃ ds, cs = '-' :: ds ∧ splitSign cs = (true, ds)) ∨ (∃ ds, cs = '+' :: ds ∧ splitSign cs = (false, ds)) ∨
      splitSign cs = (false, cs) := by
  unfold splitSign
  split
  · exact .inl ⟨_, rfl, rfl⟩
  · exact .inr (.inl ⟨_, rfl, rfl⟩)
  · exact .inr (.inr rfl)

/-- The digits that a number may have: at least one, and nothing else. -/
theorem not_noDigits_iff (ds : List Char) :
    ¬(ds.isEmpty || !ds.all Char.isDigit) = true ↔ ds ≠ [] ∧ ∀ c ∈ ds, c.isDigit = true := by
  simp

/-- What is taken for a whole number has digits behind an optional sign. -/
theorem digits_of_int64OfText? {s : String} {n : Int} {negative : Bool} {ds : List Char} (h : int64OfText? s = some n)
    (hsplit : splitSign s.toList = (negative, ds)) :
    ds ≠ [] ∧ (∀ c ∈ ds, c.isDigit = true) ∧ n = if negative then -(digitsValue ds : Int) else digitsValue ds := by
  simp only [int64OfText?, hsplit] at h
  split at h
  · cases h
  · rename_i hds
    obtain ⟨hne, hds⟩ := (not_noDigits_iff ds).1 hds
    refine ⟨hne, hds, ?_⟩
    cases negative <;> simp only [Bool.false_eq_true, if_false, if_true] at h ⊢ <;> split at h <;> cases h <;> rfl

/-- A whole number without a plus sign and without idle zeros, where zero has no sign at all. -/
def isPlainWhole : List Char → Bool
  | '-' :: ds => ds.head? != some '0'
  | cs => cs.head? != some '+' && isPlainDigits cs

/-- A number that is not negative is printed with its digits. -/
theorem toList_toString_natCast (n : Nat) : (toString (n : Int)).toList = Nat.toDigits 10 n := by
  rw [Int.toString_eq_repr, Int.repr_eq_if, if_pos (by omega), Int.toNat_natCast, Nat.toList_repr]

/-- A negative number is printed with a sign and the digits of its amount. -/
theorem toList_toString_neg {n : Nat} (hn : 0 < n) : (toString (-(n : Int))).toList = '-' :: Nat.toDigits 10 n := by
  rw [Int.toString_eq_repr, Int.repr_eq_if, if_neg (by omega), Int.neg_neg, Int.toNat_natCast, String.toList_append, Nat.toList_repr]
  rfl

/-- Digits behind a minus sign are printed as they are written exactly if they do not begin with a zero: a zero has no sign. -/
theorem toList_toString_neg_iff {ds : List Char} (hne : ds ≠ []) (hds : ∀ c ∈ ds, c.isDigit = true) :
    (toString (-(digitsValue ds : Int))).toList = '-' :: ds ↔ ds.head? ≠ some '0' := by
  have hplain := toDigits_digitsValue_iff hne hds
  rcases Nat.eq_zero_or_pos (digitsValue ds) with hzero | hpos
  · rw [hzero] at hplain ⊢
    have hhead : ds.head? = some '0' := by
      refine Decidable.byContradiction fun hhead => ?_
      rw [← hplain.2 (by simp [isPlainDigits, hhead])] at hhead
      exact hhead rfl
    have hprinted : (toString (-((0 : Nat) : Int))).toList = ['0'] := rfl
    rw [hprinted]
    simp [hhead]
  · have hlone : ds ≠ ['0'] := by
      rintro rfl
      cases hpos
    rw [toList_toString_neg hpos, List.cons_inj_right, hplain]
    simp [isPlainDigits, hlone]

/-- A whole number is printed as it is written exactly if it is plain. -/
theorem toString_int64OfText?_iff {s : String} {n : Int} (h : int64OfText? s = some n) :
    toString n = s ↔ isPlainWhole s.toList = true := by
  rw [← String.toList_inj]
  rcases splitSign_cases s.toList with ⟨ds, hs, hsplit⟩ | ⟨ds, hs, hsplit⟩ | hsplit
  · obtain ⟨hne, hds, rfl⟩ := digits_of_int64OfText? h hsplit
    rw [hs, if_pos rfl, toList_toString_neg_iff hne hds]
    simp [isPlainWhole]
  · obtain ⟨hne, hds, rfl⟩ := digits_of_int64OfText? h hsplit
    rw [hs, if_neg Bool.false_ne_true, toList_toString_natCast]
    have hsign : Nat.toDigits 10 (digitsValue ds) ≠ '+' :: ds := by
      intro hdigits
      have hplus : Char.isDigit '+' = true :=
        Nat.isDigit_of_mem_toDigits (by decide) (by decide) (hdigits ▸ List.mem_cons_self)
      cases hplus
    simp [isPlainWhole, hsign]
  · obtain ⟨hne, hds, rfl⟩ := digits_of_int64OfText? h hsplit
    rw [if_neg Bool.false_ne_true, toList_toString_natCast, toDigits_digitsValue_iff hne hds]
    have hplus : s.toList.head? ≠ some '+' := fun hhead => by simpa using hds _ (List.mem_of_head? hhead)
    unfold isPlainWhole
    split
    · rename_i ds hs
      rw [hs] at hds
      simpa using hds '-' List.mem_cons_self
    · simp [hplus]

/-! ## The characters of numbers -/

/-- Whether a character can stand in a number: a digit, a sign, a point, or a letter of the exponent mark and of the words for what
is not finite. -/
def isNumberChar (c : Char) : Bool := c.isDigit || "+-.aefinty".toList.contains c.toLower

theorem isNumberChar_of_isDigit {c : Char} (h : c.isDigit = true) : isNumberChar c = true := by simp [isNumberChar, h]

/-- A sign is a character of numbers. -/
theorem isNumberChar_of_splitSign {cs ds : List Char} {negative : Bool} (h : splitSign cs = (negative, ds))
    (hds : ∀ c ∈ ds, isNumberChar c = true) : ∀ c ∈ cs, isNumberChar c = true := by
  rcases splitSign_cases cs with ⟨rest, rfl, hsplit⟩ | ⟨rest, rfl, hsplit⟩ | hsplit
  · cases hsplit.symm.trans h
    exact List.forall_mem_cons.2 ⟨by decide, hds⟩
  · cases hsplit.symm.trans h
    exact List.forall_mem_cons.2 ⟨by decide, hds⟩
  · cases hsplit.symm.trans h
    exact hds

/-- What is read as a whole number has only characters of numbers. -/
theorem isNumberChar_of_int64OfText? {s : String} {n : Int} (h : int64OfText? s = some n) :
    ∀ c ∈ s.toList, isNumberChar c = true := by
  obtain ⟨-, hds, -⟩ := digits_of_int64OfText? h rfl
  exact isNumberChar_of_splitSign rfl fun c hc => isNumberChar_of_isDigit (hds c hc)

namespace Binary64

/-- What is read as an exponent has only characters of numbers. -/
theorem isNumberChar_of_exponentOf? {cs : List Char} {e : Int} (h : exponentOf? cs = some e) :
    ∀ c ∈ cs, isNumberChar c = true := by
  cases cs with
  | nil => exact fun c hc => nomatch hc
  | cons c cs =>
    rw [exponentOf?] at h
    split at h
    · rename_i hmark
      have hmark : isNumberChar c = true := by rcases hmark with rfl | rfl <;> decide
      cases hsplit : splitSign cs with
      | mk negative ds =>
        simp only [hsplit] at h
        split at h
        · cases h
        · rename_i hds
          obtain ⟨-, hds⟩ := (not_noDigits_iff ds).1 hds
          exact List.forall_mem_cons.2 ⟨hmark, isNumberChar_of_splitSign hsplit fun c hc => isNumberChar_of_isDigit (hds c hc)⟩
    · cases h

/-- A point and the digits behind it are characters of numbers. -/
theorem isNumberChar_of_fractionOf {cs : List Char} (h : ∀ c ∈ (fractionOf cs).2, isNumberChar c = true) :
    ∀ c ∈ cs, isNumberChar c = true := by
  unfold fractionOf at h
  split at h
  · rename_i cs
    refine List.forall_mem_cons.2 ⟨by decide, fun c hc => ?_⟩
    rw [← List.takeWhile_append_dropWhile (p := Char.isDigit) (l := cs), List.mem_append] at hc
    rcases hc with hc | hc
    · exact isNumberChar_of_isDigit (List.all_eq_true.1 List.all_takeWhile c hc)
    · exact h c hc
  · exact h

/-- The letters of a word for a number are characters of numbers, in capitals as well. -/
theorem isNumberChar_of_word {cs : List Char} {word : String} (h : String.ofList (cs.map Char.toLower) = word)
    (hword : word.toList.all (fun c => "+-.aefinty".toList.contains c) = true) : ∀ c ∈ cs, isNumberChar c = true := by
  intro c hc
  have hlower : c.toLower ∈ word.toList := by
    rw [← h, String.toList_ofList]
    exact List.mem_map_of_mem hc
  unfold isNumberChar
  rw [List.all_eq_true.1 hword _ hlower, Bool.or_true]

/-- What is read as a floating-point number has only characters of numbers. -/
theorem isNumberChar_of_ofText? {s : String} {x : Binary64} (h : ofText? s = some x) : ∀ c ∈ s.toList, isNumberChar c = true := by
  cases hsplit : splitSign s.toList with
  | mk negative cs =>
    refine isNumberChar_of_splitSign hsplit ?_
    simp only [ofText?, hsplit] at h
    split at h
    · rename_i hword
      rcases hword with hword | hword <;> exact isNumberChar_of_word hword (by decide)
    · split at h
      · rename_i hword
        exact isNumberChar_of_word hword (by decide)
      · split at h
        · cases h
        · obtain ⟨e, he, -⟩ := Option.map_eq_some_iff.1 h
          intro c hc
          rw [← List.takeWhile_append_dropWhile (p := Char.isDigit) (l := cs), List.mem_append] at hc
          rcases hc with hc | hc
          · exact isNumberChar_of_isDigit (List.all_eq_true.1 List.all_takeWhile c hc)
          · exact isNumberChar_of_fractionOf (isNumberChar_of_exponentOf? he) c hc

/-- A number without an exponent is printed with at least one digit. -/
theorem positional_ne_empty (digits : Nat) (k : Int) : positional digits k ≠ "" := by
  unfold positional
  dsimp only
  split
  · cases k.toNat with
    | zero => exact Nat.repr_ne_empty
    | succ n => exact String.push_ne_empty
  · rw [Ne, String.append_eq_empty_iff, String.append_eq_empty_iff]
    exact fun h => absurd h.1.2 (by decide)

/-- No number is printed as nothing. -/
theorem text_ne_empty (x : Binary64) : x.text ≠ "" := by
  have hwrite (digits : Nat) (k : Int) : Style.write ⟨.up, none, false⟩ digits k = positional digits k := rfl
  unfold text format
  split
  · decide
  · split <;> decide
  · dsimp only
    split <;>
    · rw [Ne, String.append_eq_empty_iff, hwrite]
      exact fun h => positional_ne_empty _ _ h.2

end Binary64

/-! ## What becomes of a text -/

namespace Settings

/-- Whether a text is a truth value, in any case. -/
def isTruthWord (v : String) : Bool := Text.lower v == "true" || Text.lower v == "false"

/-- The text of the simplest value that a text denotes. -/
def printed (v : String) : String :=
  if isTruthWord v then Text.lower v
  else
    match int64OfText? v with
    | some n => toString n
    | none => ((Binary64.ofText? v).map Binary64.text).getD v

/-- Whether a text is written as the value that it denotes is printed. A text that denotes nothing simpler is. -/
def isKept (v : String) : Bool :=
  if isTruthWord v then Text.lower v == v
  else
    match int64OfText? v with
    | some _ => isPlainWhole v.toList
    | none => (Binary64.ofText? v).all fun x => x.text == v

/-- A text is printed as it was given exactly if it is kept. -/
theorem printed_eq_iff (v : String) : printed v = v ↔ isKept v = true := by
  unfold printed isKept
  split
  · rw [beq_iff_eq]
  · split
    · rename_i n hn
      exact toString_int64OfText?_iff hn
    · cases Binary64.ofText? v <;> simp

/-- A text with a character that no number has is kept, unless it is a truth value. -/
theorem printed_of_char {v : String} {c : Char} (hword : isTruthWord v = false) (hc : c ∈ v.toList) (hchar : isNumberChar c = false) :
    printed v = v := by
  have hwhole : int64OfText? v = none := by
    refine Option.eq_none_iff_forall_ne_some.2 fun n hn => ?_
    rw [isNumberChar_of_int64OfText? hn c hc] at hchar
    cases hchar
  have hnumber : Binary64.ofText? v = none := by
    refine Option.eq_none_iff_forall_ne_some.2 fun x hx => ?_
    rw [Binary64.isNumberChar_of_ofText? hx c hc] at hchar
    cases hchar
  simp [printed, hword, hwhole, hnumber]

/-- What is not empty is not printed as nothing. -/
theorem printed_ne_empty {v : String} (hv : v ≠ "") : printed v ≠ "" := by
  unfold printed isTruthWord
  split
  · rename_i hword
    rw [Bool.or_eq_true, beq_iff_eq, beq_iff_eq] at hword
    rcases hword with hword | hword <;> (rw [hword]; decide)
  · split
    · rename_i n hn
      rw [Int.toString_eq_repr, Int.repr_eq_if]
      split
      · exact Nat.repr_ne_empty
      · rw [Ne, String.append_eq_empty_iff]
        exact fun h => Nat.repr_ne_empty h.2
    · cases Binary64.ofText? v with
      | none => exact hv
      | some x => exact x.text_ne_empty

/-- A whole number is taken as text where text is asked for. -/
theorem asText?_integer (n : Int) : asText? (.integer n) = some (toString n) := by
  rw [asText?, Int.toString_eq_repr, Int.repr_eq_if]
  by_cases hn : n < 0
  · rw [if_pos hn, if_neg (by omega), show n.natAbs = (-n).toNat by omega]
  · rw [if_neg hn, if_pos (by omega), show n.natAbs = n.toNat by omega]

/-- What a variable gives is printed as a text of its own. -/
theorem asText?_variableValue (v : String) : asText? (Environment.variableValue v) = some (printed v) := by
  unfold Environment.variableValue printed isTruthWord
  by_cases htrue : Text.lower v = "true"
  · simp [htrue, asText?]
  by_cases hfalse : Text.lower v = "false"
  · simp [hfalse, asText?]
  · cases hn : int64OfText? v with
    | some n => simp [htrue, hfalse, asText?_integer]
    | none => cases hx : Binary64.ofText? v <;> simp [htrue, hfalse, asText?]

end Settings

end DispatchTree
