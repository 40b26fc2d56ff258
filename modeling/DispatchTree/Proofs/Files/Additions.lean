import DispatchTree.Proofs.Files.Root

/-!
# What is added to a file system

`GrowsBy φ d d'` says that `d'` is `d` with entries added one by one, each to a directory under a free name, and that `φ` holds of
every entry that was added. The creation of a directory with its parents adds directories only, each on the path that is created
(`OnPath`). The creation of a root adds those above it and, as the last one, the root itself, which is empty.
-/

namespace DispatchTree

namespace Disk

/-- Entries were added, and each of them satisfies `φ`. -/
structure GrowsBy (φ : Location → Entry → Prop) (d d' : Disk) : Prop where
  grows : Grows d d'
  added : ∀ l e, d'.get? l = some e → d.get? l = some e ∨ φ l e

/-- The first names of a path, so many or all of them, lead to a location. -/
def OnPath (d : Disk) (p : String) (l : Location) : Prop :=
  ∃ names k, names <+: Path.names p ∧ Way d maxLinks (startOf d.current p) names l k

variable {d d' d'' : Disk} {φ ψ : Location → Entry → Prop} {l : Location} {name p q : String} {e : Entry}

theorem GrowsBy.refl : GrowsBy φ d d := ⟨.refl, fun _ _ h => .inl h⟩

/-- Entries that are added in two steps satisfy what those of both steps satisfy. -/
theorem GrowsBy.trans (h : GrowsBy φ d d') (h' : GrowsBy φ d' d'') : GrowsBy φ d d'' := by
  refine ⟨h.grows.trans h'.grows, fun l e hentry => ?_⟩
  rcases h'.added l e hentry with hold | hnew
  · exact h.added l e hold
  · exact .inr hnew

theorem GrowsBy.imp (h : GrowsBy φ d d') (himp : ∀ l e, φ l e → ψ l e) : GrowsBy ψ d d' := by
  refine ⟨h.grows, fun l e hentry => ?_⟩
  rcases h.added l e hentry with hold | hnew
  · exact .inl hold
  · exact .inr (himp l e hnew)

/-- One entry is added to a directory under a free name. -/
theorem growsBy_put (hdirectory : d.get? l = some .directory) (hfree : d.get? (l ++ [name]) = none) (hφ : φ (l ++ [name]) e) :
    GrowsBy φ d (d.put (l ++ [name]) e) := by
  refine ⟨.add e .refl hdirectory hfree, fun l' e' hentry => ?_⟩
  by_cases hl : l' = l ++ [name]
  · subst hl
    rw [get?_put_self] at hentry
    cases hentry
    exact .inr hφ
  · rw [get?_put_of_ne hl] at hentry
    exact .inl hentry

/-- What was not there before an entry was added is still not there, the entry itself apart. -/
theorem Grows.get?_none (h : Grows d d') (hnone : d'.get? l = none) : d.get? l = none := by
  cases hentry : d.get? l with
  | none => rfl
  | some e =>
    rw [h.keeps hentry] at hnone
    cases hnone

/-- What is on a path is still on it. -/
theorem OnPath.mono (h : d.OnPath p l) (hg : Includes d d') : d'.OnPath p l := by
  obtain ⟨names, k, hnames, way⟩ := h
  exact ⟨names, k, hnames, hg.current ▸ way.mono hg⟩

/-- Where a path leads is on the path. -/
theorem LeadsTo.onPath (h : d.LeadsTo p l) : d.OnPath p l := by
  obtain ⟨k, way⟩ := h
  exact ⟨_, k, List.prefix_rfl, way⟩

/-- What is on the path of the parent is on the path. -/
theorem OnPath.of_parent? (h : d.OnPath q l) (hparent : Path.parent? p = some q) (hq : q ≠ "") : d.OnPath p l := by
  obtain ⟨names, k, hnames, way⟩ := h
  obtain ⟨habsolute, rest, -, hp⟩ := Path.names_parent? hparent hq
  refine ⟨names, k, ?_, ?_⟩
  · rw [hp]
    exact hnames.trans (List.prefix_append _ _)
  · rwa [startOf, habsolute] at way

/-! ## Creating directories -/

/-- The directory that is created is the only entry added, and its path leads to it. -/
theorem growsBy_makeDirectory (hd : d.WellFormed) (h : d.makeDirectory p = .ok d') :
    GrowsBy (fun l e => e = .directory ∧ d'.LeadsTo p l) d d' := by
  obtain ⟨l, hl, rfl⟩ := exists_of_makeDirectory h
  obtain ⟨above, name, here, k, hn, hpoint, hup, hshort, way, hfree, rfl⟩ := exists_way_of_freeLocation hl
  have hdirectory := way.directory hd (startOf_directory p hd.current)
  refine growsBy_put hdirectory hfree ⟨rfl, ?_⟩
  exact leadsTo_of_names hn hpoint hup hshort (way.mono (Grows.add _ .refl hdirectory hfree).includes) get?_put_self

/-- Ensuring that there is a directory at a path adds nothing but that directory. -/
theorem growsBy_ensureDirectory (hd : d.WellFormed) (h : d.ensureDirectory p = .ok d') :
    GrowsBy (fun l e => e = .directory ∧ d'.LeadsTo p l) d d' := by
  rw [ensureDirectory] at h
  split at h
  · rename_i hmake
    cases h
    exact growsBy_makeDirectory hd hmake
  · split at h
    · cases h
      exact .refl
    · cases h

/-- A directory with its parents: directories on its path are added, also where a later step fails. -/
theorem growsBy_makeDirectoriesWithin (fuel : Nat) (hd : d.WellFormed) :
    GrowsBy (fun l e => e = .directory ∧ (makeDirectoriesWithin fuel d p).2.OnPath p l) d (makeDirectoriesWithin fuel d p).2 := by
  induction fuel generalizing d p with
  | zero => exact .refl
  | succ fuel ih =>
    rw [makeDirectoriesWithin]
    split
    · exact .refl
    · split
      · rename_i d' hmake
        exact (growsBy_makeDirectory hd hmake).imp fun l e h => ⟨h.1, h.2.onPath⟩
      · split
        · exact .refl
        · rename_i above hparent
          have hih := ih (p := above) hd
          -- an empty parent creates nothing, and what is on the path of another one is on the path
          have hlift : ∀ {d' : Disk}, Grows (makeDirectoriesWithin fuel d above).2 d' →
              GrowsBy (fun l e => e = .directory ∧ d'.OnPath p l) d (makeDirectoriesWithin fuel d above).2 := by
            intro d' hgrows
            by_cases habove : above = ""
            · subst habove
              cases fuel with
              | zero => exact .refl
              | succ fuel => exact .refl
            · exact hih.imp fun l e h => ⟨h.1, (h.2.mono hgrows.includes).of_parent? hparent habove⟩
          split
          · rename_i d' habove
            rw [habove] at hlift
            exact hlift .refl
          · rename_i d' habove
            rw [habove] at hlift hih
            split
            · rename_i d'' hensure
              have hlast := growsBy_ensureDirectory (hih.grows.wellFormed hd) hensure
              exact (hlift hlast.grows).trans (hlast.imp fun l e h => ⟨h.1, h.2.onPath⟩)
            · exact hlift .refl
      · split
        · exact .refl
        · exact .refl

end Disk

namespace Graph

open Disk

variable {disk disk' : Disk} {root : String}

/-- The directories above a root are added on its path. -/
theorem growsBy_makeParents (root : String) (hd : disk.WellFormed) :
    GrowsBy (fun l e => e = .directory ∧ (makeParents disk root).2.OnPath root l) disk (makeParents disk root).2 := by
  rw [makeParents]
  split
  · exact .refl
  · rename_i parent hparent
    split
    · exact .refl
    · rename_i hempty
      have hq : parent ≠ "" := fun h => hempty (String.isEmpty_iff.2 h)
      exact (growsBy_makeDirectoriesWithin _ hd).imp fun l e h => ⟨h.1, h.2.of_parent? hparent hq⟩

/-- The creation of a root adds directories on its path, also where it fails. -/
theorem growsBy_makeRoot (root : String) (hd : disk.WellFormed) :
    GrowsBy (fun l e => e = .directory ∧ (makeRoot disk root).2.OnPath root l) disk (makeRoot disk root).2 := by
  have hparents := growsBy_makeParents root hd
  obtain ⟨result, middle, hmake⟩ : ∃ result middle, makeParents disk root = (result, middle) := ⟨_, _, rfl⟩
  rw [hmake] at hparents
  cases result with
  | error f => simpa only [makeRoot, hmake] using hparents
  | ok _ =>
    simp only [makeRoot, hmake]
    split
    · rename_i disk' hroot
      have hlast := growsBy_makeDirectory (hparents.grows.wellFormed hd) hroot
      exact (hparents.imp fun l e h => ⟨h.1, h.2.mono hlast.grows.includes⟩).trans (hlast.imp fun l e h => ⟨h.1, h.2.onPath⟩)
    · exact hparents
    · exact hparents

/-- A root that was created: nothing stood there before, its path leads to it, and it is empty. -/
theorem exists_root_of_makeRoot (hd : disk.WellFormed) (h : makeRoot disk root = (.ok (), disk')) :
    checkPath root = .ok () ∧ ∃ loc, disk.get? loc = none ∧ disk'.LeadsTo root loc ∧ disk'.find false root = .ok (loc, .directory) ∧
      ∀ names ≠ [], disk'.get? (loc ++ names) = none := by
  have hgrows := grows_of_makeParents root hd
  obtain ⟨result, middle, hmake⟩ : ∃ result middle, makeParents disk root = (result, middle) := ⟨_, _, rfl⟩
  rw [hmake] at hgrows
  simp only [makeRoot, hmake] at h
  split at h
  · cases h
  · rename_i hsame
    cases hsame
    split at h
    · rename_i made hroot
      cases h
      obtain ⟨loc, hl, rfl⟩ := exists_of_makeDirectory hroot
      have hc : checkPath root = .ok () := by
        cases hc : checkPath root with
        | ok _ => rfl
        | error f =>
          simp only [freeLocation, hc, bind, Except.bind] at hl
          cases hl
      obtain ⟨above, name, here, k, hn, hpoint, hup, hshort, way, hfree, rfl⟩ := exists_way_of_freeLocation hl
      have hmiddle := hgrows.wellFormed hd
      have hput : Grows middle (middle.put (here ++ [name]) .directory) :=
        .add _ .refl (way.directory hmiddle (startOf_directory root hmiddle.current)) hfree
      refine ⟨hc, here ++ [name], hgrows.get?_none hfree, ?_, ?_, ?_⟩
      · exact leadsTo_of_names hn hpoint hup hshort (way.mono hput.includes) get?_put_self
      · exact find_directory hc hn hpoint hup hshort (way.mono hput.includes) get?_put_self
      · intro names hnames
        rw [get?_put_of_ne (by simpa using hnames), hmiddle.get?_below hfree]
    · cases h
    · cases h

end Graph

end DispatchTree
