import DispatchTree.Proofs.Fingerprint.Reading
import Mathlib.Tactic.SplitIfs

/-!
# The order of names

Names are ordered by their characters, and this is the order of their bytes: a character with a greater code has greater bytes.
-/

namespace DispatchTree

/-- The bytes of a text are those of its characters. -/
theorem utf8Bytes_eq_flatMap (s : String) : utf8Bytes s = s.toList.flatMap String.utf8EncodeChar := by
  have hbytes : s.toByteArray = s.toList.utf8Encode := by
    rw [← String.toByteArray_ofList, String.ofList_toList]
  rw [utf8Bytes_eq, hbytes, List.utf8Encode, List.toList_data_toByteArray]

theorem ofNat_lt_ofNat {a b : Nat} (ha : a < 256) (hb : b < 256) : UInt8.ofNat a < UInt8.ofNat b ↔ a < b := by
  rw [UInt8.lt_iff_toNat_lt, UInt8.toNat_ofNat', UInt8.toNat_ofNat', Nat.mod_eq_of_lt ha, Nat.mod_eq_of_lt hb]

theorem ofNat_eq_ofNat {a b : Nat} (ha : a < 256) (hb : b < 256) : UInt8.ofNat a = UInt8.ofNat b ↔ a = b := by
  rw [← UInt8.toNat_inj, UInt8.toNat_ofNat', UInt8.toNat_ofNat', Nat.mod_eq_of_lt ha, Nat.mod_eq_of_lt hb]

/-- The greater of two codes has the greater digits to the base 64. -/
theorem four_digits_lt {v v' : Nat} (h : v < v') (hmax : v' < 0x110000) :
    v / 262144 % 8 < v' / 262144 % 8 ∨ v / 262144 % 8 = v' / 262144 % 8 ∧ (v / 4096 % 64 < v' / 4096 % 64 ∨
      v / 4096 % 64 = v' / 4096 % 64 ∧ (v / 64 % 64 < v' / 64 % 64 ∨
        v / 64 % 64 = v' / 64 % 64 ∧ v % 64 < v' % 64)) := by
  have hparts : ∀ n < 0x110000, n / 262144 % 8 = n / 262144 ∧ n / 4096 = 64 * (n / 262144) + n / 4096 % 64 ∧
      n / 64 = 64 * (n / 4096) + n / 64 % 64 ∧ n = 64 * (n / 64) + n % 64 := by
    intro n hn
    omega
  have hdigits := hparts v (Nat.lt_trans h hmax)
  have hdigits' := hparts v' hmax
  omega

/-- A character with a greater code has greater bytes, whatever follows. -/
theorem utf8EncodeChar_append_lt {c c' : Char} (h : c < c') (rest rest' : List UInt8) :
    String.utf8EncodeChar c ++ rest < String.utf8EncodeChar c' ++ rest' := by
  have hval : c.val.toNat < c'.val.toNat := h
  have hmax : c'.val.toNat < 0x110000 := by
    rcases c'.valid with hv | ⟨-, hv⟩
    · exact Nat.lt_trans hv (by decide)
    · exact hv
  unfold String.utf8EncodeChar
  generalize c.val.toNat = v at hval
  generalize c'.val.toNat = v' at hval hmax
  dsimp only
  -- one to four bytes on either side, and a greater code never has fewer; with more bytes, the first one is greater
  split_ifs <;> try omega
  all_goals simp (disch := omega) only [List.cons_append, List.nil_append, List.cons_lt_cons_iff, ofNat_lt_ofNat, ofNat_eq_ofNat,
    Nat.add_lt_add_iff_right, Nat.add_right_cancel_iff]
  · exact .inl hval
  · exact .inl (by omega)
  · exact .inl (by omega)
  · exact .inl (by omega)
  · omega
  · exact .inl (by omega)
  · exact .inl (by omega)
  · omega
  · exact .inl (by omega)
  · refine (four_digits_lt hval hmax).imp_right fun ⟨hfirst, h⟩ => ⟨hfirst, h.imp_right fun ⟨hsecond, h⟩ => ⟨hsecond, ?_⟩⟩
    exact h.imp_right fun ⟨hthird, hfourth⟩ => ⟨hthird, .inl hfourth⟩

/-- Texts are ordered by their characters as they are by their bytes. -/
theorem flatMap_utf8EncodeChar_lt {l l' : List Char} (h : l < l') :
    l.flatMap String.utf8EncodeChar < l'.flatMap String.utf8EncodeChar := by
  induction l generalizing l' with
  | nil =>
    cases l' with
    | nil => exact absurd h (List.lt_irrefl _)
    | cons c' l' =>
      have hne : (c' :: l').flatMap String.utf8EncodeChar ≠ [] := by
        simp [String.utf8EncodeChar_ne_nil]
      obtain ⟨b, bs, hbs⟩ := List.exists_cons_of_ne_nil hne
      rw [hbs]
      exact List.nil_lt_cons _ _
  | cons c l ih =>
    cases l' with
    | nil => exact absurd h (List.not_lt_nil _)
    | cons c' l' =>
      rw [List.flatMap_cons, List.flatMap_cons]
      rcases List.cons_lt_cons_iff.1 h with hc | ⟨rfl, hl⟩
      · exact utf8EncodeChar_append_lt hc _ _
      · exact List.append_left_lt (ih hl)

/-- The order of names is the order of their bytes. -/
theorem utf8Bytes_lt_iff {s t : String} : utf8Bytes s < utf8Bytes t ↔ s < t := by
  have hmono : ∀ {s t : String}, s < t → utf8Bytes s < utf8Bytes t := by
    intro s t h
    rw [utf8Bytes_eq_flatMap, utf8Bytes_eq_flatMap]
    exact flatMap_utf8EncodeChar_lt (String.lt_iff.1 h)
  refine ⟨fun h => ?_, hmono⟩
  rcases Std.lt_trichotomy s t with hlt | rfl | hgt
  · exact hlt
  · exact absurd h (List.lt_irrefl _)
  · exact absurd h (List.lt_asymm (hmono hgt))

end DispatchTree
