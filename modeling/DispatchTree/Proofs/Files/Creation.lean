import DispatchTree.Proofs.Files.Growth

/-!
# Creating entries

An entry can be created at a path if and only if the names above the last one lead to a directory, the last name is free there and
the system does not fail; the entry then stands in that directory. When a directory was created with its parents, its path leads to
a directory.
-/

namespace DispatchTree.Disk

variable {d d' : Disk} {n k : Nat} {here there l : Location} {name p : String} {above names : List String} {e : Entry}
  {forDirectory : Bool}

/-- The paths that the system takes: not empty, not too long, without the character that ends a name. -/
theorem checkPath_eq_ok : checkPath p = .ok () ↔ '\x00' ∉ p.toList ∧ p ≠ "" ∧ p.utf8ByteSize ≤ maxPath := by
  simp only [checkPath, String.isEmpty_iff]
  constructor
  · intro h
    split at h
    · cases h
    · split at h
      · cases h
      · split at h
        · cases h
        · exact ⟨‹_›, ‹_›, Nat.not_lt.1 ‹_›⟩
  · rintro ⟨hnul, hempty, hsize⟩
    rw [if_neg hnul, if_neg hempty, if_neg (Nat.not_lt.2 hsize)]

/-- The names above the last one, the last one, and whether a slash follows. -/
theorem splitNames_eq (p : String) : splitNames p = ((Path.names p).dropLast, (Path.names p).getLast?, p.endsWith "/") := rfl

/-- A slash at the end asks for a directory, like an empty name. -/
theorem namesOf_eq (p : String) : namesOf p = Path.names p ++ (if p.endsWith "/" then [""] else []) := rfl

theorem splitNames_of_names (hn : Path.names p = above ++ [name]) : splitNames p = (above, some name, p.endsWith "/") := by
  rw [splitNames_eq, hn, List.dropLast_concat, List.getLast?_concat]

/-- A free name in a directory that the path leads to is where something can be created. -/
theorem freeLocation_eq (hc : checkPath p = .ok ()) (hn : Path.names p = above ++ [name]) (hpoint : name ≠ ".")
    (hup : name ≠ "..") (hshort : name.utf8ByteSize ≤ maxName) (way : Way d maxLinks (startOf d.current p) above here k)
    (hfree : d.get? (here ++ [name]) = none) (hslash : p.endsWith "/" = false ∨ forDirectory = true) :
    d.freeLocation p forDirectory = .ok (here ++ [name]) := by
  have hlast : (p.endsWith "/" && !forDirectory) = false := by
    rcases hslash with h | h <;> simp [h]
  simp only [freeLocation, hc, splitNames_of_names hn, walk_idle_iff.2 way, bind, Except.bind, hpoint, hup, or_self, if_false,
    Nat.not_lt.2 hshort, hfree, Option.isSome_none, hlast, Bool.false_eq_true]

/-- What is free is a name in a directory that the names above it lead to. -/
theorem exists_way_of_freeLocation (h : d.freeLocation p forDirectory = .ok l) :
    ∃ above name here k, Path.names p = above ++ [name] ∧ name ≠ "." ∧ name ≠ ".." ∧ name.utf8ByteSize ≤ maxName ∧
      Way d maxLinks (startOf d.current p) above here k ∧ d.get? (here ++ [name]) = none ∧ l = here ++ [name] := by
  simp only [freeLocation, bind, Except.bind] at h
  split at h
  · cases h
  rw [splitNames_eq] at h
  split at h
  · cases h
  rename_i arrival harrival
  split at h
  · cases h
  rename_i here hplace
  split at h
  · cases h
  rename_i name hname
  split at h
  · cases h
  rename_i hordinary
  split at h
  · cases h
  rename_i hshort
  split at h
  · cases h
  rename_i hfree
  split at h
  · cases h
  obtain ⟨place, k⟩ := arrival
  obtain rfl : place = .existing here := hplace
  obtain ⟨above, hn⟩ := List.getLast?_eq_some_iff.1 hname
  rw [hn, List.dropLast_concat] at harrival
  exact ⟨above, name, here, k, hn, fun h' => hordinary (.inl h'), fun h' => hordinary (.inr h'), Nat.not_lt.1 hshort,
    walk_idle_iff.1 harrival, Option.not_isSome_iff_eq_none.1 hfree, (Except.ok.inj h).symm⟩

/-- No name of a path is empty. -/
theorem ne_empty_of_mem_names (h : name ∈ Path.names p) : name ≠ "" := by
  simpa using (List.mem_filter.1 h).2

/-- The names up to a directory that was put under the last one. -/
theorem leadsTo_of_names (hn : Path.names p = above ++ [name]) (hpoint : name ≠ ".") (hup : name ≠ "..")
    (hshort : name.utf8ByteSize ≤ maxName) (way : Way d maxLinks (startOf d.current p) above here k)
    (hentry : d.get? (here ++ [name]) = some .directory) : d.LeadsTo p (here ++ [name]) := by
  have hne : name ≠ "" := ne_empty_of_mem_names (p := p) (by rw [hn]; simp)
  refine ⟨k, ?_⟩
  rw [hn]
  exact way.append (.enter (not_or.2 ⟨hne, hpoint⟩) hup hshort hentry .stay)

/-! ## Entries that are put -/

/-- Where the system does not fail, an entry is put. -/
theorem tryPut_eq (h : d.defects[l]? = none) : d.tryPut l e = .ok (d.put l e) := by
  simp only [tryPut, checkLocation, h, bind, Except.bind, pure, Except.pure]

/-- The system fails, or the entry is put. -/
theorem tryPut_cases (d : Disk) (l : Location) (e : Entry) :
    (∃ f, d.tryPut l e = .error (.system f)) ∨ d.tryPut l e = .ok (d.put l e) := by
  cases h : d.defects[l]? with
  | none => exact .inr (tryPut_eq h)
  | some defect => exact .inl ⟨defect.fault, by simp only [tryPut, checkLocation, h, bind, Except.bind]⟩

/-- A directory is created at a free location, if the system does not fail there. -/
theorem makeDirectory_eq (h : d.freeLocation p true = .ok l) (hsound : d.defects[l]? = none) :
    d.makeDirectory p = .ok (d.put l .directory) := by
  simp only [makeDirectory, h, tryPut_eq hsound, bind, Except.bind]

/-- A directory that was created was put at a free location. -/
theorem exists_of_makeDirectory (h : d.makeDirectory p = .ok d') : ∃ l, d.freeLocation p true = .ok l ∧ d' = d.put l .directory := by
  cases hl : d.freeLocation p true with
  | error f =>
    simp only [makeDirectory, hl, bind, Except.bind] at h
    cases h
  | ok l =>
    simp only [makeDirectory, hl, bind, Except.bind] at h
    rcases d.tryPut_cases l .directory with ⟨f, hf⟩ | hput
    · rw [hf] at h
      cases h
    · rw [hput] at h
      cases h
      exact ⟨l, rfl, rfl⟩

/-- A directory that was created is one step of growth, and its path leads to it. -/
theorem grows_of_makeDirectory (hd : d.WellFormed) (h : d.makeDirectory p = .ok d') : Grows d d' ∧ ∃ l, d'.LeadsTo p l := by
  obtain ⟨l, hl, rfl⟩ := exists_of_makeDirectory h
  obtain ⟨above, name, here, k, hn, hpoint, hup, hshort, way, hfree, rfl⟩ := exists_way_of_freeLocation hl
  have hgrows : Grows d (d.put (here ++ [name]) .directory) :=
    .add _ .refl (way.directory hd (startOf_directory p hd.current)) hfree
  exact ⟨hgrows, _, leadsTo_of_names hn hpoint hup hshort (way.mono hgrows.includes) get?_put_self⟩

/-- What a path leads to, step by step: the path is one that the system takes, and the walk along it ends at an entry. -/
theorem find_eq_ok {followLast : Bool} : d.find followLast p = .ok (l, e) ↔
    checkPath p = .ok () ∧ (∃ k, d.walk followLast maxLinks (startOf d.current p) (namesOf p) = .ok ⟨.existing l, k⟩) ∧
      d.get? l = some e := by
  simp only [find, resolve, bind, Except.bind, pure, Except.pure]
  cases checkPath p with
  | error f => simp
  | ok _ =>
    cases d.walk followLast maxLinks (startOf d.current p) (namesOf p) with
    | error f => simp
    | ok arrival =>
      obtain ⟨place, k⟩ := arrival
      cases place with
      | missing here name => simp
      | existing there =>
        constructor
        · intro h
          dsimp only at h
          split at h
          · cases h
            exact ⟨rfl, ⟨k, rfl⟩, ‹_›⟩
          · cases h
        · rintro ⟨-, ⟨_, hplace⟩, hentry⟩
          cases hplace
          dsimp only
          rw [hentry]

/-- The path of a directory leads to it. -/
theorem leadsTo_of_isDirectory (h : d.isDirectory p = true) : ∃ l, d.LeadsTo p l := by
  rw [isDirectory] at h
  split at h
  · rename_i l hfind
    obtain ⟨-, ⟨k, hwalk⟩, hentry⟩ := find_eq_ok.1 hfind
    refine ⟨l, k, ?_⟩
    rcases way_or_file_of_walk hwalk with way | ⟨content, hfile⟩
    · rw [namesOf_eq] at way
      split at way
      · exact way.of_append_idle
      · rwa [List.append_nil] at way
    · rw [hentry] at hfile
      cases hfile
  · cases h

/-- After a directory is ensured the path leads to one, and nothing is gone. -/
theorem grows_of_ensureDirectory (hd : d.WellFormed) (h : d.ensureDirectory p = .ok d') :
    Grows d d' ∧ ∃ l, d'.LeadsTo p l := by
  rw [ensureDirectory] at h
  split at h
  · rename_i hmake
    cases h
    exact grows_of_makeDirectory hd hmake
  · split at h
    · rename_i hdirectory
      cases h
      exact ⟨.refl, leadsTo_of_isDirectory hdirectory⟩
    · cases h

/-- A directory with its parents is created in steps of growth. Where it succeeds, the path leads to a directory. -/
theorem grows_of_makeDirectoriesWithin (fuel : Nat) (hd : d.WellFormed) :
    Grows d (makeDirectoriesWithin fuel d p).2 ∧
      ((makeDirectoriesWithin fuel d p).1 = .ok () → p = "" ∨ ∃ l, (makeDirectoriesWithin fuel d p).2.LeadsTo p l) := by
  induction fuel generalizing d p with
  | zero => exact ⟨.refl, fun h => nomatch h⟩
  | succ fuel ih =>
    rw [makeDirectoriesWithin]
    split
    · rename_i hempty
      exact ⟨.refl, fun _ => .inl (String.isEmpty_iff.1 hempty)⟩
    · split
      · rename_i d' hmake
        have h := grows_of_makeDirectory hd hmake
        exact ⟨h.1, fun _ => .inr h.2⟩
      · split
        · exact ⟨.refl, fun h => nomatch h⟩
        · rename_i above _
          have hih := (ih (p := above) hd).1
          split
          · rename_i d' habove
            rw [habove] at hih
            exact ⟨hih, fun h => nomatch h⟩
          · rename_i d' habove
            rw [habove] at hih
            split
            · rename_i d'' hensure
              have h := grows_of_ensureDirectory (hih.wellFormed hd) hensure
              exact ⟨hih.trans h.1, fun _ => .inr h.2⟩
            · exact ⟨hih, fun h => nomatch h⟩
      · split
        · rename_i hdirectory
          exact ⟨.refl, fun _ => .inr (leadsTo_of_isDirectory hdirectory)⟩
        · exact ⟨.refl, fun h => nomatch h⟩

end DispatchTree.Disk
