import Mathlib.Algebra.Group.Nat.Defs
import Mathlib.Data.List.Nodup
import DispatchTree.Proofs.Files.Path
import DispatchTree.Proofs.Linking

/-!
# The names in a tree

The names below a root are the tags of nodes, the dispatch keys and the names of the three programs. Tags are hexadecimal numbers:
different nodes have different tags, and no tag is the name of a program or a dispatch key, since those have other characters.
Dispatch keys start with an escape character, and so are not the names of programs either.
-/

namespace DispatchTree

/-! ## Tags -/

/-- The characters of tags. -/
def tagChars : List Char := "0123456789abcdef".toList

/-- The hexadecimal digits are among the characters of tags. -/
theorem digitChar_mem_tagChars {n : Nat} (h : n < 16) : n.digitChar ∈ tagChars := by
  have hall : ∀ i : Fin 16, Nat.digitChar i ∈ tagChars := by decide
  exact hall ⟨n, h⟩

/-- Different values have different digits. -/
theorem digitChar_injective {m n : Nat} (hm : m < 16) (hn : n < 16) (h : m.digitChar = n.digitChar) : m = n := by
  have hall : ∀ i j : Fin 16, Nat.digitChar i = Nat.digitChar j → i = j := by decide
  exact congrArg Fin.val (hall ⟨m, hm⟩ ⟨n, hn⟩ h)

/-- A number in hexadecimal digits has no other characters. -/
theorem mem_tagChars_of_mem_toDigits {n : Nat} {c : Char} (h : c ∈ Nat.toDigits 16 n) : c ∈ tagChars := by
  induction n using Nat.strongRecOn with
  | _ n ih =>
    rw [Nat.toDigits_eq_if (by decide)] at h
    split at h
    · rw [List.mem_singleton.1 h]
      exact digitChar_mem_tagChars ‹_›
    · rcases List.mem_append.1 h with h | h
      · exact ih (n / 16) (by omega) h
      · rw [List.mem_singleton.1 h]
        exact digitChar_mem_tagChars (by omega)

/-- Hexadecimal digits determine the number: the last digit is the remainder, and the digits before it are those of the quotient. -/
theorem toDigits_injective {m n : Nat} (h : Nat.toDigits 16 m = Nat.toDigits 16 n) : m = n := by
  induction m using Nat.strongRecOn generalizing n with
  | _ m ih =>
    rw [Nat.toDigits_eq_if (n := m) (by decide), Nat.toDigits_eq_if (n := n) (by decide)] at h
    split at h <;> split at h
    · exact digitChar_injective ‹_› ‹_› (List.cons.inj h).1
    · have hnil := (List.append_eq_singleton_iff.1 h.symm).resolve_right (by simp) |>.1
      exact absurd hnil Nat.toDigits_ne_nil
    · have hnil := (List.append_eq_singleton_iff.1 h).resolve_right (by simp) |>.1
      exact absurd hnil Nat.toDigits_ne_nil
    · obtain ⟨hquotient, hlast⟩ := List.append_inj' h rfl
      have hq := ih (m / 16) (by omega) hquotient
      have hr := digitChar_injective (by omega) (by omega) (List.cons.inj hlast).1
      omega

/-- Different numbers have different tags. -/
theorem tag_injective {m n : Nat} (h : tag m = tag n) : m = n := by
  have hl := congrArg String.toList h
  rw [tag, tag, String.toList_ofList, String.toList_ofList] at hl
  exact toDigits_injective hl

/-- A tag consists of hexadecimal digits. -/
theorem mem_tagChars_of_mem_tag {id : Nat} {c : Char} (h : c ∈ (tag id).toList) : c ∈ tagChars := by
  rw [tag, String.toList_ofList] at h
  exact mem_tagChars_of_mem_toDigits h

/-- A name with another character is not a tag. -/
theorem tag_ne {id : Nat} {name : String} {c : Char} (hc : c ∈ name.toList) (hother : c ∉ tagChars) : tag id ≠ name := by
  intro h
  exact hother (mem_tagChars_of_mem_tag (h ▸ hc))

/-- Each of these characters takes one byte. -/
theorem utf8ByteSize_of_tagChars {cs : List Char} (h : ∀ c ∈ cs, c ∈ tagChars) : (String.ofList cs).utf8ByteSize = cs.length := by
  induction cs with
  | nil => rfl
  | cons c cs ih =>
    have hone : ∀ c ∈ tagChars, c.utf8Size = 1 := by
      have hall : (tagChars.all fun c => c.utf8Size == 1) = true := by decide
      simpa using hall
    have hcons : String.ofList (c :: cs) = String.singleton c ++ String.ofList cs := by
      rw [← String.toList_inj]
      simp
    rw [hcons, String.utf8ByteSize_append, String.utf8ByteSize_singleton, hone c (h c List.mem_cons_self),
      ih fun c' hc => h c' (List.mem_cons_of_mem _ hc), List.length_cons, Nat.add_comm]

/-- The tag of a number that is not too large is not too long. -/
theorem utf8ByteSize_tag {id : Nat} (h : id < 16 ^ Disk.maxName) : (tag id).utf8ByteSize ≤ Disk.maxName := by
  rw [tag, utf8ByteSize_of_tagChars fun c => mem_tagChars_of_mem_toDigits]
  exact (Nat.length_toDigits_le_iff (by decide) (by decide)).2 h

/-- A tag is a plain name, however long it is. -/
theorem isPlain_tag (id : Nat) : Path.IsPlain (tag id) where
  ne_empty he := by
    rw [tag, ← String.toList_eq_nil_iff, String.toList_ofList] at he
    exact Nat.toDigits_ne_nil he
  ne_point := tag_ne (c := '.') (by decide) (by decide)
  ne_points := tag_ne (c := '.') (by decide) (by decide)
  noSlash hc := absurd (mem_tagChars_of_mem_tag hc) (by decide)

/-- A tag that is not too long can be the name of a file. -/
theorem isName_tag {id : Nat} (h : (tag id).utf8ByteSize ≤ Disk.maxName) : Path.IsName (tag id) where
  ne_empty := (isPlain_tag id).ne_empty
  ne_point := (isPlain_tag id).ne_point
  ne_points := (isPlain_tag id).ne_points
  noSlash := (isPlain_tag id).noSlash
  noNul hc := absurd (mem_tagChars_of_mem_tag hc) (by decide)
  short := h

/-! ## Dispatch keys -/

namespace SymbolPair

/-- The dispatch keys of all pairs. -/
def allKeys : List String := all.flatMap dispatchKeys

/-- A key stands for one of the pairs. -/
theorem mem_allKeys {key : String} : key ∈ allKeys ↔ ∃ pair : SymbolPair, key ∈ pair.dispatchKeys := by
  rw [allKeys, List.mem_flatMap]
  constructor
  · rintro ⟨pair, -, h⟩
    exact ⟨pair, h⟩
  · rintro ⟨pair, h⟩
    exact ⟨pair, mem_all pair, h⟩

/-- No key stands for two pairs, and none is listed twice. -/
theorem nodup_allKeys : allKeys.Nodup := by
  refine List.nodup_flatMap.2 ⟨fun pair _ => ?_, ?_⟩
  · have hne := forwardKey_ne_reverseKey pair pair
    simp [dispatchKeys, hne]
  · have hall : all.Nodup := by decide
    refine hall.imp fun hne key hp hq => hne (eq_of_mem_dispatchKeys hp hq)

/-- A reply starts with an escape character, and no character of it is special in paths. -/
theorem checksumReply_chars (s : Symbol) (t : Track) :
    '\x1b' ∈ (checksumReply s t).toList ∧ '/' ∉ (checksumReply s t).toList ∧ '\x00' ∉ (checksumReply s t).toList ∧
      (checksumReply s t).utf8ByteSize ≤ 20 := by
  cases s <;> cases t <;> decide

/-- A key is made of two replies. -/
theorem exists_replies {key : String} (h : key ∈ allKeys) : ∃ s t s' t', key = checksumReply s t ++ checksumReply s' t' := by
  obtain ⟨pair, hkey⟩ := mem_allKeys.1 h
  simp only [dispatchKeys, List.mem_cons, List.not_mem_nil, or_false] at hkey
  rcases hkey with rfl | rfl
  · exact ⟨_, _, _, _, rfl⟩
  · exact ⟨_, _, _, _, rfl⟩

/-- Every key has an escape character in it. -/
theorem escape_mem_key {key : String} (h : key ∈ allKeys) : '\x1b' ∈ key.toList := by
  obtain ⟨s, t, s', t', rfl⟩ := exists_replies h
  rw [String.toList_append]
  exact List.mem_append_left _ (checksumReply_chars s t).1

/-- A name without an escape character is not a key. -/
theorem key_ne {key name : String} (h : key ∈ allKeys) (hname : '\x1b' ∉ name.toList) : key ≠ name :=
  fun he => hname (he ▸ escape_mem_key h)

/-- A key can be the name of a file. -/
theorem isName_key {key : String} (h : key ∈ allKeys) : Path.IsName key where
  ne_empty := key_ne h (by decide)
  ne_point := key_ne h (by decide)
  ne_points := key_ne h (by decide)
  noSlash := by
    obtain ⟨s, t, s', t', rfl⟩ := exists_replies h
    rw [String.toList_append, List.mem_append]
    exact not_or.2 ⟨(checksumReply_chars s t).2.1, (checksumReply_chars s' t').2.1⟩
  noNul := by
    obtain ⟨s, t, s', t', rfl⟩ := exists_replies h
    rw [String.toList_append, List.mem_append]
    exact not_or.2 ⟨(checksumReply_chars s t).2.2.1, (checksumReply_chars s' t').2.2.1⟩
  short := by
    obtain ⟨s, t, s', t', rfl⟩ := exists_replies h
    rw [String.utf8ByteSize_append, Disk.maxName]
    have h1 := (checksumReply_chars s t).2.2.2
    have h2 := (checksumReply_chars s' t').2.2.2
    omega

/-- No tag is a key. -/
theorem tag_ne_key {key : String} {id : Nat} (h : key ∈ allKeys) : tag id ≠ key := tag_ne (escape_mem_key h) (by decide)

end SymbolPair

end DispatchTree
