import DispatchTree.Proofs.Files.Way

/-!
# Growing file systems

A file system is well formed if every entry stands in a directory. It grows when entries are added to its directories under names
that are free: nothing is lost (`Grows.includes`) and it stays well formed. Where nothing is lost, every way that was there is still
there. Creating a directory, a link or a new file is such a step, and so is every step of the creation of a directory with its
parents.
-/

namespace DispatchTree.Disk

/-- Every entry stands in a directory, and relative paths start from a directory. -/
structure WellFormed (d : Disk) : Prop where
  current : d.get? d.current = some .directory
  parent : ∀ l name e, d.get? (l ++ [name]) = some e → d.get? l = some .directory

/-- Entries were added one by one, each to a directory that was there, under a name that was free. -/
inductive Grows (d : Disk) : Disk → Prop
  | refl : Grows d d
  | add {d' : Disk} {l : Location} {name : String} (e : Entry) (grows : Grows d d') (hdirectory : d'.get? l = some .directory)
      (hfree : d'.get? (l ++ [name]) = none) : Grows d (d'.put (l ++ [name]) e)

/-- All entries of a disk stand on another one, which has the same working directory. -/
structure Includes (d d' : Disk) : Prop where
  current : d'.current = d.current
  entries : ∀ l e, d.get? l = some e → d'.get? l = some e

variable {d d' d'' : Disk} {n k : Nat} {here there l l' : Location} {name p : String} {above names rest : List String} {e : Entry}
  {followLast : Bool}

/-- What stands on a disk once an entry was put. -/
theorem get?_put (hl : l ≠ []) : (d.put l e).get? l' = if l' = l then some e else d.get? l' := by
  cases l' with
  | nil =>
    rw [if_neg (Ne.symm hl)]
    rfl
  | cons name names =>
    simp only [get?, put, List.isEmpty_cons, Bool.false_eq_true, if_false, Std.ExtTreeMap.getElem?_insert, Std.compare_eq_iff_eq]
    simp only [eq_comm]

/-- An entry that is put down is there. -/
theorem get?_put_self : (d.put (l ++ [name]) e).get? (l ++ [name]) = some e := by
  rw [get?_put (by simp), if_pos rfl]

/-- All other entries are what they were. -/
theorem get?_put_of_ne (h : l' ≠ l ++ [name]) : (d.put (l ++ [name]) e).get? l' = d.get? l' := by
  rw [get?_put (by simp), if_neg h]

/-- Relative paths start from the same directory. -/
theorem Grows.current (h : Grows d d') : d'.current = d.current := by
  induction h with
  | refl => rfl
  | add _ _ _ _ ih => exact ih

/-- Entries that are added do not change where the system fails. -/
theorem Grows.defects (h : Grows d d') : d'.defects = d.defects := by
  induction h with
  | refl => rfl
  | add _ _ _ _ ih => exact ih

/-- What was there is still there. -/
theorem Grows.keeps (h : Grows d d') (hl : d.get? l = some e) : d'.get? l = some e := by
  induction h with
  | refl => exact hl
  | add _ _ _ hfree ih =>
    rw [get?_put_of_ne]
    · exact ih
    · rintro rfl
      rw [hfree] at ih
      cases ih

/-- A file system that grows loses nothing. -/
theorem Grows.includes (h : Grows d d') : Includes d d' := ⟨h.current, fun _ _ => h.keeps⟩

/-- Growth goes on. -/
theorem Grows.trans (h : Grows d d') (h' : Grows d' d'') : Grows d d'' := by
  induction h' with
  | refl => exact h
  | add e _ hdirectory hfree ih => exact .add e ih hdirectory hfree

/-- A file system that grows stays well formed. -/
theorem Grows.wellFormed (h : Grows d d') (hd : d.WellFormed) : d'.WellFormed := by
  induction h with
  | refl => exact hd
  | @add d' l name e h hdirectory hfree ih =>
    have hl : l ≠ l ++ [name] := by simp
    refine ⟨?_, fun l₁ name₁ e₁ h₁ => ?_⟩
    · exact (Grows.add e .refl hdirectory hfree).keeps ih.current
    · -- the new entry stands in its directory, and the others stood in one before
      by_cases hlast : l₁ ++ [name₁] = l ++ [name]
      · rw [(List.append_inj' hlast rfl).1, get?_put_of_ne hl, hdirectory]
      · rw [get?_put_of_ne hlast] at h₁
        exact (Grows.add e .refl hdirectory hfree).keeps (ih.parent _ _ _ h₁)

/-- Nothing stands below a name that is free. -/
theorem WellFormed.get?_below (hd : d.WellFormed) (hfree : d.get? l = none) (names : List String) :
    d.get? (l ++ names) = none := by
  induction names generalizing l with
  | nil => rwa [List.append_nil]
  | cons name names ih =>
    rw [List.append_cons]
    refine ih ?_
    cases hentry : d.get? (l ++ [name]) with
    | none => rfl
    | some e =>
      rw [hd.parent _ _ _ hentry] at hfree
      cases hfree

/-! ## Ways in a larger file system -/

/-- A way stays. -/
theorem Way.mono (way : Way d n here names there k) (h : Includes d d') : Way d' n here names there k := by
  induction way with
  | stay => exact .stay
  | skip hname _ ih => exact .skip hname ih
  | leave _ ih => exact .leave ih
  | enter hidle hup hshort hentry _ ih => exact .enter hidle hup hshort (h.entries _ _ hentry) ih
  | follow hidle hup hshort hentry _ ih => exact .follow hidle hup hshort (h.entries _ _ hentry) ih

/-- A walk to an entry leads there still. -/
theorem walk_mono (h : Includes d d') (hwalk : d.walk followLast n here names = .ok ⟨.existing there, k⟩) :
    d'.walk followLast n here names = .ok ⟨.existing there, k⟩ := by
  induction n, here, names using walk_induction with
  | nil n here =>
    rw [walk_nil] at hwalk ⊢
    exact hwalk
  | cons n here name rest hrest hjump =>
    rw [walk_cons] at hwalk ⊢
    by_cases hidle : name = "" ∨ name = "."
    · rw [if_pos hidle] at hwalk ⊢
      exact hrest here hwalk
    · rw [if_neg hidle] at hwalk ⊢
      by_cases hup : name = ".."
      · rw [if_pos hup] at hwalk ⊢
        exact hrest here.dropLast hwalk
      · rw [if_neg hup] at hwalk ⊢
        by_cases hlong : name.utf8ByteSize > maxName
        · rw [if_pos hlong] at hwalk
          cases hwalk
        · rw [if_neg hlong] at hwalk ⊢
          cases hentry : d.get? (here ++ [name]) with
          | none =>
            rw [hentry] at hwalk
            dsimp only at hwalk
            split at hwalk <;> cases hwalk
          | some e =>
            rw [h.entries _ _ hentry]
            rw [hentry] at hwalk
            cases e with
            | directory => exact hrest (here ++ [name]) hwalk
            | file content => exact hwalk
            | link target =>
              dsimp only at hwalk ⊢
              split at hwalk
              · rwa [if_pos ‹_›]
              · rw [if_neg ‹_›]
                cases n with
                | zero => cases hwalk
                | succ m => exact hjump m _ _ rfl hwalk

/-- A path starts from a directory, seen from one. -/
theorem startOf_directory (p : String) (h : d.get? here = some .directory) : d.get? (startOf here p) = some .directory := by
  rw [startOf]
  split
  · rfl
  · exact h

/-- A way leads to a directory. -/
theorem Way.directory (way : Way d n here names there k) (hd : d.WellFormed) (h : d.get? here = some .directory) :
    d.get? there = some .directory := by
  induction way with
  | stay => exact h
  | skip _ _ ih => exact ih h
  | @leave _ _ here _ _ _ ih =>
    refine ih ?_
    rcases List.eq_nil_or_concat here with rfl | ⟨above, name, rfl⟩
    · rfl
    · rw [List.concat_eq_append] at h ⊢
      rw [List.dropLast_concat]
      exact hd.parent _ _ _ h
  | enter _ _ _ hentry _ ih => exact ih hentry
  | follow _ _ _ _ _ ih => exact ih (startOf_directory _ h)

/-- A path leads to a directory. -/
def LeadsTo (d : Disk) (p : String) (l : Location) : Prop := ∃ k, Way d maxLinks (startOf d.current p) (Path.names p) l k

/-- A path still leads where it led. -/
theorem LeadsTo.mono (h : d.LeadsTo p l) (hg : Includes d d') : d'.LeadsTo p l := by
  obtain ⟨k, way⟩ := h
  exact ⟨k, hg.current ▸ way.mono hg⟩

/-- What a path leads to is a directory. -/
theorem LeadsTo.directory (h : d.LeadsTo p l) (hd : d.WellFormed) : d.get? l = some .directory := by
  obtain ⟨k, way⟩ := h
  exact way.directory hd (startOf_directory p hd.current)

/-- A path leads into a directory that stands where it leads. -/
theorem LeadsTo.join (h : d.LeadsTo p l) (hp : p ≠ "") (hname : Path.IsName name)
    (hentry : d.get? (l ++ [name]) = some .directory) : d.LeadsTo (Path.join p name) (l ++ [name]) := by
  obtain ⟨k, way⟩ := h
  refine ⟨k, ?_⟩
  rw [startOf, Path.isAbsolute_join hname hp, Path.names_join hname hp]
  exact way.append (.enter (not_or.2 ⟨hname.ne_empty, hname.ne_point⟩) hname.ne_points hname.short hentry .stay)

end DispatchTree.Disk
