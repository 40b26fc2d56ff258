import DispatchTree.Graph.Fingerprint
import DispatchTree.Proofs.Files.Names

/-!
# Reading bytes back

A way to write values as bytes is readable if the bytes of a value can be told from whatever follows them (`Reads`). Numbers below
`2 ^ 64` are readable because their bytes have one length, texts because their length stands in front, and lists of values because
their number does.
-/

namespace DispatchTree

/-- Values that satisfy a condition are read back from their bytes: bytes that begin with one value begin with no other, and what
follows is the same. -/
def Reads {α : Type} (write : α → List UInt8) (valid : α → Prop) : Prop :=
  ∀ a b rest rest', valid a → valid b → write a ++ rest = write b ++ rest' → a = b ∧ rest = rest'

/-! ## Numbers -/

@[simp] theorem length_bytes64 (n : Nat) : (bytes64 n).length = 8 := by
  simp [bytes64]

/-- Numbers with the same digits have the same remainder by a power of the base. -/
theorem mod_pow_eq_of_digits {m n base : Nat} (k : Nat) (h : ∀ j < k, m / base ^ j % base = n / base ^ j % base) :
    m % base ^ k = n % base ^ k := by
  induction k with
  | zero => simp [Nat.mod_one]
  | succ k ih =>
    rw [Nat.mod_pow_succ, Nat.mod_pow_succ, ih fun j hj => h j (Nat.lt_succ_of_lt hj), h k (Nat.lt_succ_self k)]

/-- Eight bytes determine the number. -/
theorem bytes64_injective {m n : Nat} (hm : m < 2 ^ 64) (hn : n < 2 ^ 64) (h : bytes64 m = bytes64 n) : m = n := by
  have hdigits : ∀ j < 8, m / 256 ^ j % 256 = n / 256 ^ j % 256 := by
    intro j hj
    -- the digit of weight `j` is the byte at place `7 - j`
    have hmap := List.map_inj_left.1 h (7 - j) (List.mem_range.2 (by omega))
    have hnat := congrArg UInt8.toNat hmap
    have hshift : 8 * (7 - (7 - j)) = 8 * j := by omega
    have hpow : 2 ^ (8 * j) = 256 ^ j := Nat.pow_mul 2 8 j
    simpa [Nat.shiftRight_eq_div_pow, hshift, hpow] using hnat
  have hmod := mod_pow_eq_of_digits 8 hdigits
  rwa [show 256 ^ 8 = 2 ^ 64 by decide, Nat.mod_eq_of_lt hm, Nat.mod_eq_of_lt hn] at hmod

/-- A number is read back from its bytes. -/
theorem reads_bytes64 : Reads bytes64 (· < 2 ^ 64) := by
  intro m n rest rest' hm hn h
  obtain ⟨hbytes, hrest⟩ := List.append_inj h (by simp)
  exact ⟨bytes64_injective hm hn hbytes, hrest⟩

/-! ## Texts -/

theorem toList_loop_eq (bs : ByteArray) (i : Nat) (r : List UInt8) :
    ByteArray.toList.loop bs i r = r.reverse ++ bs.data.toList.drop i := by
  fun_induction ByteArray.toList.loop bs i r with
  | case1 i r hi ih =>
    have hlt : i < bs.data.toList.length := hi
    rw [ih, List.reverse_cons, List.append_assoc, List.drop_eq_getElem_cons hlt]
    congr 2
    simp [ByteArray.get!, getElem!_pos bs.data i hi]
  | case2 i r hi =>
    rw [List.drop_eq_nil_of_le (Nat.not_lt.1 hi), List.append_nil]

theorem utf8Bytes_eq (s : String) : utf8Bytes s = s.toByteArray.data.toList := by
  rw [utf8Bytes, ByteArray.toList, toList_loop_eq]
  rfl

/-- A text has as many bytes as its size says. -/
theorem length_utf8Bytes (s : String) : (utf8Bytes s).length = s.utf8ByteSize := by
  rw [utf8Bytes_eq]
  exact s.size_toByteArray

/-- The bytes of a text determine the text. -/
theorem utf8Bytes_injective {s t : String} (h : utf8Bytes s = utf8Bytes t) : s = t := by
  rw [utf8Bytes_eq, utf8Bytes_eq] at h
  exact String.toByteArray_inj.1 (ByteArray.ext (Array.toList_inj.1 h))

/-- A text whose length fits in eight bytes. -/
def FitsLength (s : String) : Prop := s.utf8ByteSize < 2 ^ 64

/-- A text is read back from its length and its bytes. -/
theorem reads_textBytes : Reads textBytes FitsLength := by
  intro s t rest rest' hs ht h
  rw [textBytes, textBytes, List.append_assoc, List.append_assoc] at h
  obtain ⟨hsize, h⟩ := reads_bytes64 _ _ _ _ hs ht h
  obtain ⟨hbytes, hrest⟩ := List.append_inj h (by rw [length_utf8Bytes, length_utf8Bytes, hsize])
  exact ⟨utf8Bytes_injective hbytes, hrest⟩

/-- A number is read back from the bytes of its tag. -/
theorem reads_tag : Reads (fun id => textBytes (tag id)) fun id => FitsLength (tag id) := by
  intro i j rest rest' hi hj h
  obtain ⟨htag, hrest⟩ := reads_textBytes _ _ _ _ hi hj h
  exact ⟨tag_injective htag, hrest⟩

/-! ## Sequences -/

/-- As many values as are known to be there are read back one after the other. -/
theorem Reads.flatMap {α : Type} {write : α → List UInt8} {valid : α → Prop} (hwrite : Reads write valid) {as bs : List α}
    {rest rest' : List UInt8} (ha : ∀ a ∈ as, valid a) (hb : ∀ b ∈ bs, valid b) (hlen : as.length = bs.length)
    (h : as.flatMap write ++ rest = bs.flatMap write ++ rest') : as = bs ∧ rest = rest' := by
  induction as generalizing bs with
  | nil =>
    obtain rfl := List.length_eq_zero_iff.1 hlen.symm
    exact ⟨rfl, h⟩
  | cons a as ih =>
    cases bs with
    | nil => cases hlen
    | cons b bs =>
      rw [List.flatMap_cons, List.flatMap_cons, List.append_assoc, List.append_assoc] at h
      obtain ⟨rfl, htail⟩ := hwrite _ _ _ _ (ha a List.mem_cons_self) (hb b List.mem_cons_self) h
      obtain ⟨rfl, hrest⟩ := ih (fun x hx => ha x (List.mem_cons_of_mem _ hx)) (fun x hx => hb x (List.mem_cons_of_mem _ hx))
        (Nat.succ.inj hlen) htail
      exact ⟨rfl, hrest⟩

/-- A list of values with their number in front. -/
theorem Reads.counted {α : Type} {write : α → List UInt8} {valid : α → Prop} (hwrite : Reads write valid) :
    Reads (fun as => bytes64 as.length ++ as.flatMap write) fun as : List α => as.length < 2 ^ 64 ∧ ∀ a ∈ as, valid a := by
  intro as bs rest rest' ha hb h
  simp only [List.append_assoc] at h
  obtain ⟨hlen, h⟩ := reads_bytes64 _ _ _ _ ha.1 hb.1 h
  exact hwrite.flatMap ha.2 hb.2 hlen h

/-! ## Edges -/

/-- The number of edges, their keys and the tags of their targets fit in eight bytes each. -/
structure Edges.FitsLengths (es : Edges) : Prop where
  count : es.toList.length < 2 ^ 64
  texts : ∀ edge ∈ es.toList, FitsLength edge.1 ∧ FitsLength (tag edge.2)

/-- An edge is read back from its key and the tag of its target. -/
theorem reads_edge : Reads (fun edge : String × Nat => textBytes edge.1 ++ textBytes (tag edge.2))
    fun edge => FitsLength edge.1 ∧ FitsLength (tag edge.2) := by
  intro a b rest rest' ha hb h
  rw [List.append_assoc, List.append_assoc] at h
  obtain ⟨hkey, h⟩ := reads_textBytes _ _ _ _ ha.1 hb.1 h
  obtain ⟨htarget, hrest⟩ := reads_tag _ _ _ _ ha.2 hb.2 h
  exact ⟨Prod.ext hkey htarget, hrest⟩

/-- Edges are read back from their count and their bytes. -/
theorem reads_edges : Reads Edges.bytes Edges.FitsLengths := by
  intro es es' rest rest' hes hes' h
  rw [Edges.bytes, Edges.bytes, ← Std.ExtTreeMap.length_toList, ← Std.ExtTreeMap.length_toList] at h
  obtain ⟨hlist, hrest⟩ := reads_edge.counted _ _ _ _ ⟨hes.count, hes.texts⟩ ⟨hes'.count, hes'.texts⟩ h
  exact ⟨Std.ExtTreeMap.toList_inj.1 hlist, hrest⟩

end DispatchTree
