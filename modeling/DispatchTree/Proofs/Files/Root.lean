import DispatchTree.Proofs.Files.Creation

/-!
# The root of a tree

A build creates the directories above its root and then the root. It can do so if the last name of the root is an ordinary one,
the directories above it can be created, and nothing stands under the name once they are there. The root is then a new and empty
directory, and nothing else that stood on the disk has changed.
-/

namespace DispatchTree

namespace Disk

variable {d d' : Disk} {n k : Nat} {here there l : Location} {name p : String} {above names : List String} {e : Entry}
  {followLast : Bool}

/-- What a path leads to is still found. -/
theorem find_mono (h : Includes d d') (hfind : d.find followLast p = .ok (l, e)) : d'.find followLast p = .ok (l, e) := by
  obtain ⟨hc, ⟨k, hwalk⟩, hentry⟩ := find_eq_ok.1 hfind
  refine find_eq_ok.2 ⟨hc, ⟨k, ?_⟩, h.entries _ _ hentry⟩
  rw [h.current]
  exact walk_mono h hwalk

/-- An entry at a path is found when the last link is not followed. -/
theorem exists_find_of_hasEntry (h : d.hasEntry p = true) : ∃ l e, d.find false p = .ok (l, e) := by
  rw [hasEntry] at h
  cases hfind : d.find false p with
  | error f =>
    rw [hfind] at h
    cases h
  | ok found => exact ⟨found.1, found.2, rfl⟩

/-- Nothing stands under the last name of a path, in the directory that the names above it lead to. -/
def Vacant (d : Disk) (p : String) : Prop :=
  ∀ here k, d.walk true maxLinks (startOf d.current p) ((splitNames p).1 ++ [""]) = .ok ⟨.existing here, k⟩ →
    ∀ name ∈ (splitNames p).2.1, d.get? (here ++ [name]) = none

/-- A path at which a tree can be written: the system does not fail, the file system takes the last name of the path as it is, the
directories above it are there or can be created, and then nothing stands there. -/
structure TakesRoot (d : Disk) (root : String) : Prop where
  sound : d.defects = ∅
  ordinary : ∃ name ∈ (splitNames root).2.1, name ≠ "." ∧ name ≠ ".." ∧ name.utf8ByteSize ≤ maxName
  accepted : checkPath root = .ok ()
  parents : (Graph.makeParents d root).1 = .ok ()
  vacant : (Graph.makeParents d root).2.Vacant root

/-- There is nothing at a path whose last name is free. -/
theorem hasEntry_eq_false (hn : Path.names p = above ++ [name]) (hpoint : name ≠ ".") (hup : name ≠ "..")
    (hshort : name.utf8ByteSize ≤ maxName) (way : Way d maxLinks (startOf d.current p) above here k)
    (hfree : d.get? (here ++ [name]) = none) : d.hasEntry p = false := by
  rw [Bool.eq_false_iff]
  intro h
  obtain ⟨l, e, hfind⟩ := exists_find_of_hasEntry h
  obtain ⟨-, ⟨j, hwalk⟩, -⟩ := find_eq_ok.1 hfind
  have hne : name ≠ "" := ne_empty_of_mem_names (p := p) (by rw [hn]; simp)
  rw [namesOf_eq, hn, List.append_assoc, way.walk_append (by simp), List.cons_append, List.nil_append,
    walk_name (not_or.2 ⟨hne, hpoint⟩) hup hshort, hfree] at hwalk
  dsimp only at hwalk
  split at hwalk <;> cases hwalk

/-- Points lead nowhere. -/
theorem way_skip_points {points : List String} (h : ∀ x ∈ points, x = ".") : Way d n here points here n := by
  induction points with
  | nil => exact .stay
  | cons x points ih =>
    exact .skip (.inr (h x List.mem_cons_self)) (ih fun y hy => h y (List.mem_cons_of_mem _ hy))

/-- A directory under the last name of a path is what the path leads to. -/
theorem find_directory (hc : checkPath p = .ok ()) (hn : Path.names p = above ++ [name]) (hpoint : name ≠ ".") (hup : name ≠ "..")
    (hshort : name.utf8ByteSize ≤ maxName) (way : Way d maxLinks (startOf d.current p) above here k)
    (hentry : d.get? (here ++ [name]) = some .directory) : d.find followLast p = .ok (here ++ [name], .directory) := by
  have hne : name ≠ "" := ne_empty_of_mem_names (p := p) (by rw [hn]; simp)
  refine find_eq_ok.2 ⟨hc, ⟨k, ?_⟩, hentry⟩
  rw [namesOf_eq, hn, List.append_assoc, way.walk_append (by simp), List.cons_append, List.nil_append,
    walk_name (not_or.2 ⟨hne, hpoint⟩) hup hshort, hentry]
  dsimp only
  split
  · rw [walk_cons, if_pos (.inl rfl), walk_nil]
  · rw [walk_nil]

end Disk

namespace Graph

open Disk

variable {disk : Disk} {root name : String} {above : List String}

/-- Making the parents of the root removes nothing, also where it fails. -/
theorem grows_of_makeParents (root : String) (hd : disk.WellFormed) : Grows disk (makeParents disk root).2 := by
  rw [makeParents]
  split
  · exact .refl
  · split
    · exact .refl
    · exact (grows_of_makeDirectoriesWithin _ hd).1

/-- The names above the last one lead to a directory once the directories above a root were created. -/
theorem way_of_makeParents (hd : disk.WellFormed) (hn : Path.names root = above ++ [name]) (hpoint : name ≠ ".")
    (hok : (makeParents disk root).1 = .ok ()) :
    ∃ here k, Way (makeParents disk root).2 maxLinks (startOf (makeParents disk root).2.current root) above here k := by
  rcases Path.parent?_of_names hn hpoint with ⟨hparent, rfl⟩ | ⟨q, points, hparent, hq, habsolute, rfl, hpoints⟩
  · exact ⟨_, _, .stay⟩
  · have hmake : makeParents disk root = ((disk.makeDirectories q).1.mapError (.disk q ·), (disk.makeDirectories q).2) := by
      simp only [makeParents, hparent, String.isEmpty_iff, hq, if_false]
    rw [hmake] at hok ⊢
    have hok' : (disk.makeDirectories q).1 = .ok () := by
      cases hres : (disk.makeDirectories q).1 with
      | ok _ => rfl
      | error f =>
        rw [hres] at hok
        cases hok
    obtain ⟨here, k, way⟩ := ((grows_of_makeDirectoriesWithin _ hd).2 hok').resolve_left hq
    refine ⟨here, k, ?_⟩
    rw [startOf, habsolute] at way
    exact way.append (way_skip_points hpoints)

end Graph

/-- The root of a build: it was not there, and it is created as an empty directory. -/
theorem Disk.TakesRoot.makeRoot {disk : Disk} {root : String} (h : disk.TakesRoot root) (hd : disk.WellFormed) :
    disk.hasEntry root = false ∧ ∃ disk' loc, Graph.makeRoot disk root = (.ok (), disk') ∧ Disk.Grows disk disk' ∧
      disk'.LeadsTo root loc ∧ disk'.find false root = .ok (loc, .directory) ∧
      ∀ names ≠ [], disk'.get? (loc ++ names) = none := by
  obtain ⟨name, hname, hpoint, hup, hshort⟩ := h.ordinary
  obtain ⟨above, hn⟩ := List.getLast?_eq_some_iff.1 hname
  have hgrows := Graph.grows_of_makeParents root hd
  obtain ⟨here, k, way⟩ := Graph.way_of_makeParents hd hn hpoint h.parents
  have hvacant := h.vacant
  have hparents : Graph.makeParents disk root = (.ok (), (Graph.makeParents disk root).2) := Prod.ext h.parents rfl
  generalize (Graph.makeParents disk root).2 = middle at hgrows way hvacant hparents
  have hsplit := Disk.splitNames_of_names hn
  have hfree : middle.get? (here ++ [name]) = none :=
    hvacant here k (by rw [hsplit]; exact Disk.walk_idle_iff.2 way) name hname
  have hmiddle := hgrows.wellFormed hd
  have hput : Disk.Grows middle (middle.put (here ++ [name]) .directory) :=
    .add _ .refl (way.directory hmiddle (Disk.startOf_directory root hmiddle.current)) hfree
  refine ⟨?_, middle.put (here ++ [name]) .directory, here ++ [name], ?_, hgrows.trans hput, ?_, ?_, ?_⟩
  · rw [Bool.eq_false_iff]
    intro hentry
    obtain ⟨l, e, hfind⟩ := Disk.exists_find_of_hasEntry hentry
    have hnone := Disk.hasEntry_eq_false hn hpoint hup hshort way hfree
    rw [Disk.hasEntry, Disk.find_mono hgrows.includes hfind] at hnone
    cases hnone
  · have hlocation := Disk.freeLocation_eq h.accepted hn hpoint hup hshort way hfree (.inr rfl)
    have hsound : middle.defects[here ++ [name]]? = none := by rw [hgrows.defects, h.sound, Std.ExtTreeMap.getElem?_empty]
    simp only [Graph.makeRoot, hparents, Disk.makeDirectory_eq hlocation hsound]
  · exact Disk.leadsTo_of_names hn hpoint hup hshort (way.mono hput.includes) Disk.get?_put_self
  · exact Disk.find_directory h.accepted hn hpoint hup hshort (way.mono hput.includes) Disk.get?_put_self
  · intro names hnames
    rw [Disk.get?_put_of_ne (by simpa using hnames), hmiddle.get?_below hfree]

/-- What stands under a name in the working directory is found there. -/
theorem Disk.location_of_find_name {disk : Disk} {name : String} {l : Location} {e : Entry} (hname : Path.IsName name)
    (h : disk.find false name = .ok (l, e)) : l = disk.current ++ [name] := by
  obtain ⟨-, ⟨k, hwalk⟩, -⟩ := Disk.find_eq_ok.1 h
  have hnames : Disk.namesOf name = [name] := by
    have hslash : name.endsWith "/" = false := by
      rw [Bool.eq_false_iff]
      intro h
      exact hname.noSlash (List.IsSuffix.subset (Path.endsWith_iff.1 h) (by decide))
    rw [Disk.namesOf_eq, Path.names, Path.parts_of_noSlash hname.noSlash, hslash]
    simp [hname.ne_empty]
  rw [hnames, Disk.startOf, Path.isAbsolute_of_noSlash hname.noSlash,
    Disk.walk_name (not_or.2 ⟨hname.ne_empty, hname.ne_point⟩) hname.ne_points hname.short] at hwalk
  split at hwalk
  · cases hwalk
  · rw [Disk.walk_nil] at hwalk
    cases hwalk
    rfl
  · cases hwalk
    rfl
  · cases hwalk
    rfl

/-- A tree can be written under a name in the working directory where nothing stands, if the system does not fail. -/
theorem Disk.takesRoot_name {disk : Disk} {name : String} (hsound : disk.defects = ∅) (hname : Path.IsName name)
    (hfree : disk.get? (disk.current ++ [name]) = none) : disk.TakesRoot name := by
  have hn : Path.names name = [] ++ [name] := by
    rw [Path.names, Path.parts_of_noSlash hname.noSlash]
    simp [hname.ne_empty]
  have hsplit := Disk.splitNames_of_names hn
  have hparents : Graph.makeParents disk name = (.ok (), disk) := by
    rcases Path.parent?_of_names hn hname.ne_point with ⟨hparent, -⟩ | ⟨q, points, hparent, hq, -⟩
    · simp [Graph.makeParents, hparent]
    · -- a single name has no names above it
      obtain ⟨front, between, x, tail, hfront, -, hparts, -⟩ := Path.exists_parts_of_parent? hparent hq
      rw [Path.parts_of_noSlash hname.noSlash] at hparts
      have hlen := congrArg List.length hparts
      have hpos := List.length_pos_iff.2 hfront
      simp only [List.length_append, List.length_cons, List.length_nil] at hlen
      omega
  refine ⟨hsound, ⟨name, by rw [hsplit]; rfl, hname.ne_point, hname.ne_points, hname.short⟩,
    Disk.checkPath_eq_ok.2 ⟨hname.noNul, hname.ne_empty, Nat.le_trans hname.short (by decide)⟩, by rw [hparents], ?_⟩
  rw [hparents]
  intro here k hwalk name' hname'
  rw [hsplit] at hwalk hname'
  cases Option.mem_some_iff.1 hname'
  have hstart : Disk.startOf disk.current name = disk.current := by
    rw [Disk.startOf, Path.isAbsolute_of_noSlash hname.noSlash]
    rfl
  rw [hstart] at hwalk
  obtain ⟨rfl, -⟩ := (Disk.walk_idle_iff.1 hwalk).unique .stay
  exact hfree

end DispatchTree
