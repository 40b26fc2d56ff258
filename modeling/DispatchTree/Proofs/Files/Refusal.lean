import DispatchTree.Proofs.Files.Keeping

/-!
# When a refusal leaves the disk as it is

A build refuses a root that is there. It looks for the root first, and then nothing is written. But the root is found to be there a
second time when it is created, and by then the directories above it have been created. The disk is therefore unchanged if and only
if the names above the root's last one led to a directory before: a path such as `a/..`, with `a` missing, leads nowhere at first,
and once `a` is created it leads to a directory that is there.
-/

namespace DispatchTree

namespace Disk

/-- The names above the last one of a path lead to a directory. -/
def ReachesAbove (d : Disk) (p : String) : Prop :=
  ∃ here k, Way d maxLinks (startOf d.current p) (Path.names p).dropLast here k

variable {d : Disk} {n k : Nat} {here there l : Location} {name p q : String} {names : List String}

/-- Where a path leads to something, the names above the last one lead to a directory. -/
theorem reachesAbove_of_hasEntry (h : d.hasEntry p = true) : d.ReachesAbove p := by
  obtain ⟨l, e, hfind⟩ := exists_find_of_hasEntry h
  obtain ⟨-, ⟨k, hwalk⟩, -⟩ := find_eq_ok.1 hfind
  rcases List.eq_nil_or_concat (Path.names p) with hn | ⟨above, name, hn⟩
  · refine ⟨startOf d.current p, maxLinks, ?_⟩
    rw [hn]
    exact .stay
  · rw [List.concat_eq_append] at hn
    rw [namesOf_eq, hn, List.append_assoc] at hwalk
    obtain ⟨mid, j, way, -⟩ := way_of_walk_append (by simp) hwalk
    refine ⟨mid, j, ?_⟩
    rwa [hn, List.dropLast_concat]

/-- A path at which something is found in the way was accepted, and the names above its last one lead to a directory. -/
theorem of_freeLocation_alreadyExists {forDirectory : Bool} (h : d.freeLocation p forDirectory = .error .alreadyExists) :
    checkPath p = .ok () ∧ d.ReachesAbove p := by
  have hc : checkPath p = .ok () := by
    cases hc : checkPath p with
    | ok _ => rfl
    | error f =>
      simp only [freeLocation, hc, bind, Except.bind] at h
      cases h
      exact absurd hc (checkPath_ne_alreadyExists p)
  simp only [freeLocation, hc, splitNames_eq, bind, Except.bind] at h
  cases hwalk : d.walk true maxLinks (startOf d.current p) ((Path.names p).dropLast ++ [""]) with
  | error f =>
    rw [hwalk] at h
    cases h
    exact absurd hwalk walk_ne_alreadyExists
  | ok arrival =>
    obtain ⟨place, k⟩ := arrival
    cases place with
    | missing directory name =>
      rw [hwalk] at h
      cases h
    | existing here => exact ⟨hc, here, k, walk_idle_iff.1 hwalk⟩

/-- The last name of a way is taken, and not too long. -/
theorem Way.last (way : Way d n here (names ++ [name]) there k) (hidle : ¬(name = "" ∨ name = ".")) (hup : name ≠ "..") :
    ∃ mid j, Way d n here names mid j ∧ name.utf8ByteSize ≤ maxName ∧ (d.get? (mid ++ [name])).isSome := by
  obtain ⟨mid, j, hway, hlast⟩ := way.split
  refine ⟨mid, j, hway, ?_⟩
  cases hlast with
  | skip hname _ => exact absurd hname hidle
  | leave _ => exact absurd rfl hup
  | enter _ _ hshort hentry _ => exact ⟨hshort, by rw [hentry]; rfl⟩
  | follow _ _ hshort hentry _ => exact ⟨hshort, by rw [hentry]; rfl⟩

/-- A directory that is there cannot be created. -/
theorem makeDirectory_of_leadsTo (hc : checkPath p = .ok ()) (h : d.LeadsTo p l) : d.makeDirectory p = .error .alreadyExists := by
  obtain ⟨k, way⟩ := h
  rcases List.eq_nil_or_concat (Path.names p) with hn | ⟨above, name, hn⟩
  · have hwalk : d.walk true maxLinks (startOf d.current p) ([] ++ [""]) = .ok ⟨.existing (startOf d.current p), maxLinks⟩ :=
      walk_idle_iff.2 .stay
    simp only [makeDirectory, freeLocation, hc, splitNames_eq, hn, List.dropLast_nil, hwalk, List.getLast?_nil, bind, Except.bind]
  · rw [List.concat_eq_append] at hn
    rw [hn] at way
    by_cases hordinary : name = "." ∨ name = ".."
    · obtain ⟨mid, j, habove, -⟩ := way.split
      simp only [makeDirectory, freeLocation, hc, splitNames_of_names hn, walk_idle_iff.2 habove, bind, Except.bind, if_pos hordinary]
    · have hne : name ≠ "" := ne_empty_of_mem_names (p := p) (by rw [hn]; simp)
      obtain ⟨hpoint, hup⟩ := not_or.1 hordinary
      obtain ⟨mid, j, habove, hshort, hentry⟩ := way.last (not_or.2 ⟨hne, hpoint⟩) hup
      simp only [makeDirectory, freeLocation, hc, splitNames_of_names hn, walk_idle_iff.2 habove, bind, Except.bind,
        if_neg hordinary, if_neg (Nat.not_lt.2 hshort), if_pos hentry]

/-- A path that leads to a directory is a directory. -/
theorem isDirectory_of_leadsTo (hd : d.WellFormed) (hc : checkPath p = .ok ()) (h : d.LeadsTo p l) : d.isDirectory p = true := by
  have hentry := h.directory hd
  obtain ⟨k, way⟩ := h
  have hfind : d.find true p = .ok (l, .directory) := by
    refine find_eq_ok.2 ⟨hc, ⟨k, ?_⟩, hentry⟩
    rw [namesOf_eq]
    split
    · exact walk_idle_iff.2 way
    · rw [List.append_nil]
      exact way.walk_eq
  rw [isDirectory, hfind]

/-- Creating a directory that is there, with its parents, changes nothing. -/
theorem makeDirectories_of_leadsTo (hd : d.WellFormed) (hc : checkPath p = .ok ()) (h : d.LeadsTo p l) :
    d.makeDirectories p = (.ok (), d) := by
  have hempty : p.isEmpty = false := Bool.eq_false_iff.2 fun he => (checkPath_eq_ok.1 hc).2.1 (String.isEmpty_iff.1 he)
  simp only [makeDirectories, makeDirectoriesWithin, hempty, makeDirectory_of_leadsTo hc h, isDirectory_of_leadsTo hd hc h,
    Bool.false_eq_true, if_false, if_true]

/-- The file system takes the parent of a path that it takes. -/
theorem checkPath_parent? (hc : checkPath p = .ok ()) (hparent : Path.parent? p = some q) (hq : q ≠ "") : checkPath q = .ok () := by
  obtain ⟨hnul, -, hsize⟩ := checkPath_eq_ok.1 hc
  obtain ⟨rest, rfl⟩ := Path.exists_append_of_parent? hparent hq
  rw [String.utf8ByteSize_append] at hsize
  refine checkPath_eq_ok.2 ⟨fun h => hnul ?_, hq, by omega⟩
  rw [String.toList_append]
  exact List.mem_append_left _ h

end Disk

namespace Graph

open Disk

variable {disk disk' : Disk} {root p : String}

/-- Nothing has to be created above a root whose names lead to a directory. -/
theorem makeParents_of_reachesAbove (hd : disk.WellFormed) (hc : checkPath root = .ok ()) (h : disk.ReachesAbove root) :
    makeParents disk root = (.ok (), disk) := by
  rw [makeParents]
  split
  · rfl
  · rename_i parent hparent
    split
    · rfl
    · rename_i hempty
      have hq : parent ≠ "" := fun h => hempty (String.isEmpty_iff.2 h)
      obtain ⟨habsolute, rest, hrest, hn⟩ := Path.names_parent? hparent hq
      obtain ⟨here, k, way⟩ := h
      -- the names of the parent are the first ones above the last name of the root
      rw [hn, List.dropLast_append_of_ne_nil hrest] at way
      obtain ⟨mid, j, hway, -⟩ := way.split
      have hlead : disk.LeadsTo parent mid := by
        refine ⟨j, ?_⟩
        rwa [startOf, habsolute]
      rw [makeDirectories_of_leadsTo hd (checkPath_parent? hc hparent hq) hlead]
      rfl

/-- Creating the directories above a root fails with a fault of the file system. -/
theorem makeParents_eq_error {f : BuildFault} (h : makeParents disk root = (.error f, disk')) : ∃ q fault, f = .disk q fault := by
  rw [makeParents] at h
  split at h
  · cases h
  · split at h
    · cases h
    · rename_i parent _ _
      cases hresult : (disk.makeDirectories parent).1 with
      | ok _ =>
        simp only [hresult] at h
        cases h
      | error fault =>
        simp only [hresult] at h
        cases h
        exact ⟨_, _, rfl⟩

/-- A root is found in the way when it is created: the directories above it are there by then. -/
theorem makeRoot_eq_outputRootExists (h : makeRoot disk root = (.error (.outputRootExists p), disk')) :
    makeParents disk root = (.ok (), disk') ∧ disk'.freeLocation root true = .error .alreadyExists := by
  obtain ⟨result, middle, hmake⟩ : ∃ result middle, makeParents disk root = (result, middle) := ⟨_, _, rfl⟩
  simp only [makeRoot, hmake] at h
  cases result with
  | error f =>
    obtain ⟨q, f', rfl⟩ := makeParents_eq_error hmake
    cases h
  | ok _ =>
    dsimp only at h
    split at h
    · cases h
    · rename_i hroot
      cases h
      refine ⟨hmake, ?_⟩
      cases hl : disk'.freeLocation root true with
      | error f =>
        simp only [makeDirectory, hl, bind, Except.bind] at hroot
        cases hroot
        rfl
      | ok l =>
        simp only [makeDirectory, hl, bind, Except.bind] at hroot
        rcases disk'.tryPut_cases l .directory with ⟨f, hf⟩ | hput
        · rw [hf] at hroot
          cases hroot
        · rw [hput] at hroot
          cases hroot
    · cases h

end Graph

/-- The fault of a link is one of the file system, or its name is taken by a link to another target. -/
theorem Disk.linkEdge_eq_error {d : Disk} {target link : String} {source : EdgeSource} {f : BuildFault}
    (h : d.linkEdge target link source = .error f) : (∃ path fault, f = .disk path fault) ∨ ∃ c, f = .conflict c := by
  rw [linkEdge] at h
  split at h
  · cases h
  · split at h
    · cases h
      exact .inl ⟨_, _, rfl⟩
    · split at h
      · cases h
      · cases h
        exact .inr ⟨_, rfl⟩
  · cases h
    exact .inl ⟨_, _, rfl⟩

/-- An operation of a build fails because of the file system, at a link whose name is taken, or with a program that cannot be
rendered. -/
theorem Operation.run_eq_error {op : Operation} {p : Progress} {f : BuildFault} (h : op.run p = .error f) :
    (∃ path fault, f = .disk path fault) ∨ (∃ target path source c, op = .link target path source ∧ f = .conflict c) ∨
      ∃ path u, op = .file path (.error u) ∧ f = .underflow u := by
  cases op with
  | directory path =>
    simp only [run] at h
    cases hmake : p.disk.makeDirectory path with
    | error fault =>
      rw [hmake] at h
      cases h
      exact .inl ⟨_, _, rfl⟩
    | ok disk =>
      rw [hmake] at h
      cases h
  | file path content =>
    simp only [run] at h
    cases content with
    | error u =>
      cases h
      exact .inr (.inr ⟨path, u, rfl, rfl⟩)
    | ok text =>
      simp only [mapError_ok, bind, Except.bind] at h
      cases hwrite : p.disk.writeText path text with
      | error fault =>
        rw [hwrite] at h
        cases h
        exact .inl ⟨_, _, rfl⟩
      | ok disk =>
        rw [hwrite] at h
        cases h
  | link target path source =>
    simp only [run, bind, Except.bind] at h
    split at h
    · rename_i fault hedge
      cases h
      rcases Disk.linkEdge_eq_error hedge with hdisk | ⟨c, hc⟩
      · exact .inl hdisk
      · exact .inr (.inl ⟨target, path, source, c, rfl, hc⟩)
    · split at h
      · cases h
      · cases h
  | nodeDone id kind => cases h
  | linksDone path edges => cases h

/-- No operation of a build says that the root is there. -/
theorem Operation.run_ne_outputRootExists (op : Operation) (p : Progress) (path : String) :
    op.run p ≠ .error (.outputRootExists path) := by
  intro h
  rcases run_eq_error h with ⟨_, _, hf⟩ | ⟨_, _, _, _, _, hf⟩ | ⟨_, _, _, hf⟩
  · cases hf
  · cases hf
  · cases hf

/-- The operations below the root never say that the root is taken. -/
theorem Operation.runAll_ne_outputRootExists (ops : List Operation) (p : Progress) (path : String) :
    (runAll ops p).1 ≠ .error (.outputRootExists path) := by
  induction ops generalizing p with
  | nil => nofun
  | cons op ops ih =>
    rw [runAll]
    split
    · exact ih _
    · rename_i f hf
      intro h
      cases h
      exact op.run_ne_outputRootExists p path hf

namespace Graph

/-- A graph's root is refused where it is found, or where it is created. -/
theorem materialize_eq_outputRootExists {g : Graph} {d : Display} {disk : Disk} {root p : String}
    (h : (g.materialize d root disk).1 = .error (.outputRootExists p)) :
    disk.hasEntry root = true ∧ (g.materialize d root disk).2.1 = disk ∨
      makeRoot disk root = (.error (.outputRootExists p), (g.materialize d root disk).2.1) := by
  unfold materialize at h ⊢
  split at h
  · rename_i hentry
    rw [if_pos hentry]
    exact .inl ⟨hentry, rfl⟩
  · rename_i hentry
    rw [if_neg hentry]
    split at h
    · rename_i f disk' hmake
      cases h
      exact .inr hmake
    · rename_i disk' hmake
      split at h
      · rename_i f p' hrun
        cases h
        exact absurd (congrArg Prod.fst hrun) (Operation.runAll_ne_outputRootExists _ _ p)
      · split at h
        · cases h
        · cases h

/-- A refusal leaves the disk as it is if and only if the names above the root's last one led to a directory. -/
theorem materialize_keeps_iff {g : Graph} {d : Display} {disk : Disk} {root p : String} (hdisk : disk.WellFormed)
    (h : (g.materialize d root disk).1 = .error (.outputRootExists p)) :
    (g.materialize d root disk).2.1 = disk ↔ disk.ReachesAbove root := by
  rcases materialize_eq_outputRootExists h with ⟨hentry, heq⟩ | hmake
  · exact ⟨fun _ => Disk.reachesAbove_of_hasEntry hentry, fun _ => heq⟩
  · obtain ⟨hparents, hexists⟩ := makeRoot_eq_outputRootExists hmake
    obtain ⟨hc, habove⟩ := Disk.of_freeLocation_alreadyExists hexists
    constructor
    · intro heq
      rwa [heq] at habove
    · intro hreaches
      rw [makeParents_of_reachesAbove hdisk hc hreaches] at hparents
      exact (Prod.mk.inj hparents).2.symm

end Graph

/-- When a root is refused because it is there, the disk is as before if and only if the names above the root's last one led to a
directory already. -/
theorem refusal_keeps_disk_iff (disk : Disk) (hdisk : disk.WellFormed) (d : Display) (root p : String) :
    (∀ g : Graph, (g.materialize d root disk).1 = .error (.outputRootExists p) →
      ((g.materialize d root disk).2.1 = disk ↔ disk.ReachesAbove root)) ∧
    ∀ m : Machine, (m.build d root disk).1 = .error (.outputRootExists p) →
      ((m.build d root disk).2.1 = disk ↔ disk.ReachesAbove root) := by
  refine ⟨fun g h => Graph.materialize_keeps_iff hdisk h, fun m h => ?_⟩
  cases hentry : disk.hasEntry root with
  | true =>
    rw [Machine.build, if_pos hentry]
    exact ⟨fun _ => Disk.reachesAbove_of_hasEntry hentry, fun _ => rfl⟩
  | false =>
    obtain ⟨heq, hdisk'⟩ := m.build_of_hasEntry d hentry
    rw [hdisk']
    exact Graph.materialize_keeps_iff hdisk (heq ▸ h)

/-- The fault of the root's creation ends the build of a machine, and the disk is as the creation left it. -/
theorem Machine.build_of_makeRoot (m : Machine) (d : Display) {disk disk' : Disk} {root : String} {f : BuildFault}
    (hentry : disk.hasEntry root = false) (h : Graph.makeRoot disk root = (.error f, disk')) :
    (m.build d root disk).1 = .error f ∧ (m.build d root disk).2.1 = disk' := by
  simp only [Machine.build, Graph.materialize, hentry, m.plan_eq, h, Bool.false_eq_true, if_false, and_self]

/-- A path that leads through a missing directory and back is refused only after the directory was created. -/
theorem refusal_creates_directory :
    (Disk.workingIn []).WellFormed ∧
      (zeroing.build ⟨4⟩ "a/.." (Disk.workingIn [])).1 = .error (.outputRootExists "a/..") ∧
      (Disk.workingIn []).get? ["a"] = none ∧
      (zeroing.build ⟨4⟩ "a/.." (Disk.workingIn [])).2.1.get? ["a"] = some .directory := by
  have hmake : Graph.makeRoot (Disk.workingIn []) "a/.." =
      (.error (.outputRootExists "a/.."), (Disk.workingIn []).put ["a"] .directory) := by decide +kernel
  obtain ⟨hresult, hdisk⟩ := zeroing.build_of_makeRoot ⟨4⟩ (by decide +kernel) hmake
  refine ⟨Disk.wellFormed_empty, hresult, by decide +kernel, ?_⟩
  rw [hdisk]
  decide +kernel

/-- A disk with a link that leads nowhere. -/
def danglingLink : Disk := (Disk.workingIn []).put ["l"] (.link "nowhere")

/-- A link that leads nowhere is in the way of a root, and nothing is written; the root of `refusal_creates_directory` is refused on
the same disk with a directory left behind. -/
theorem refusal_keeps_danglingLink :
    danglingLink.WellFormed ∧
      (zeroing.build ⟨4⟩ "l/" danglingLink).1 = .error (.outputRootExists "l/") ∧
      (zeroing.build ⟨4⟩ "l/" danglingLink).2.1 = danglingLink ∧
      (zeroing.graph.materialize ⟨4⟩ "l/" danglingLink).1 = .error (.outputRootExists "l/") ∧
      (zeroing.graph.materialize ⟨4⟩ "l/" danglingLink).2.1 = danglingLink ∧
      (zeroing.build ⟨4⟩ "a/.." danglingLink).1 = .error (.outputRootExists "a/..") ∧
      ¬danglingLink.ReachesAbove "a/.." := by
  have hgrows : Disk.Grows (Disk.workingIn []) danglingLink :=
    Disk.Grows.add (l := []) (.link "nowhere") .refl rfl (by decide +kernel)
  have hdisk := hgrows.wellFormed Disk.wellFormed_empty
  have hmakeLink : Graph.makeRoot danglingLink "l/" = (.error (.outputRootExists "l/"), danglingLink) := by decide +kernel
  have hmakeBack : Graph.makeRoot danglingLink "a/.." =
      (.error (.outputRootExists "a/.."), danglingLink.put ["a"] .directory) := by decide +kernel
  have hentry : danglingLink.hasEntry "l/" = false := by decide +kernel
  obtain ⟨hlink, -⟩ := zeroing.build_of_makeRoot ⟨4⟩ hentry hmakeLink
  have hgraph : (zeroing.graph.materialize ⟨4⟩ "l/" danglingLink).1 = .error (.outputRootExists "l/") :=
    Graph.materialize_of_makeRoot hentry (congrArg Prod.fst hmakeLink)
  obtain ⟨hback, hafter⟩ := zeroing.build_of_makeRoot ⟨4⟩ (by decide +kernel) hmakeBack
  have habove : danglingLink.ReachesAbove "l/" := by
    refine ⟨Disk.startOf danglingLink.current "l/", Disk.maxLinks, ?_⟩
    rw [show (Path.names "l/").dropLast = [] by decide +kernel]
    exact .stay
  obtain ⟨hmaterialize, hbuild⟩ := refusal_keeps_disk_iff danglingLink hdisk ⟨4⟩ "l/" "l/"
  refine ⟨hdisk, hlink, (hbuild zeroing hlink).2 habove, hgraph, (hmaterialize zeroing.graph hgraph).2 habove, hback,
    fun hreaches => ?_⟩
  · have hsame := ((refusal_keeps_disk_iff danglingLink hdisk ⟨4⟩ "a/.." "a/..").2 zeroing hback).2 hreaches
    rw [hafter] at hsame
    revert hsame
    decide +kernel

end DispatchTree
