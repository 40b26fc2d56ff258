import DispatchTree.Proofs.Files.Root
import DispatchTree.Proofs.Linking

/-!
# Writing entries below a root

A build is a list of operations. Each of them adds one entry below the root or only notes how far the build has come. If every entry
stands in a directory that was written before it, no two entries have the same names and the root was empty, then all operations
succeed, no link is found to be there already, and what stands below the root is what was written.
-/

namespace DispatchTree

/-- The path of names below a root. -/
def Path.under (root : String) (names : Location) : String := names.foldl Path.join root

namespace Disk

variable {d : Disk} {here loc : Location} {name base target root : String} {names : List String}

/-- A free name in a directory is where something can be created. -/
theorem freeLocation_join {forDirectory : Bool} (hb : base ≠ "") (hname : Path.IsName name)
    (hc : checkPath (Path.join base name) = .ok ()) (h : d.LeadsTo base here) (hfree : d.get? (here ++ [name]) = none) :
    d.freeLocation (Path.join base name) forDirectory = .ok (here ++ [name]) := by
  obtain ⟨k, way⟩ := h
  rw [startOf, ← Path.isAbsolute_join hname hb] at way
  exact freeLocation_eq hc (Path.names_join hname hb) hname.ne_point hname.ne_points hname.short way hfree
    (.inl (Path.endsWith_join hname hb))

/-- A link is created under a free name. -/
theorem makeLink_join (hb : base ≠ "") (hname : Path.IsName name) (hc : checkPath (Path.join base name) = .ok ())
    (h : d.LeadsTo base here) (hfree : d.get? (here ++ [name]) = none) (hsound : d.defects[here ++ [name]]? = none)
    (htarget : checkPath target = .ok ()) :
    d.makeLink target (Path.join base name) = .ok (d.put (here ++ [name]) (.link target)) := by
  have hnul : ¬('\x00' ∈ target.toList ∨ '\x00' ∈ (Path.join base name).toList) :=
    not_or.2 ⟨(checkPath_eq_ok.1 htarget).1, (checkPath_eq_ok.1 hc).1⟩
  simp only [makeLink, if_neg hnul, htarget, freeLocation_join hb hname hc h hfree, tryPut_eq hsound, bind, Except.bind]

/-- A text is written to a new file under a free name. -/
theorem writeText_join (s : String) (hb : base ≠ "") (hname : Path.IsName name) (hc : checkPath (Path.join base name) = .ok ())
    (h : d.LeadsTo base here) (hfree : d.get? (here ++ [name]) = none) (hsound : d.defects[here ++ [name]]? = none) :
    d.writeText (Path.join base name) s = .ok (d.put (here ++ [name]) (.file s.toUTF8)) := by
  obtain ⟨k, way⟩ := h
  rw [startOf, ← Path.isAbsolute_join hname hb] at way
  have hsplit := splitNames_of_names (Path.names_join hname hb)
  have hlocation : d.fileLocation (Path.join base name) = .ok (here ++ [name]) := by
    simp only [fileLocation, hc, fileLocationWithin, hsplit, startOf, walk_idle_iff.2 way, bind, Except.bind,
      Path.endsWith_join hname hb, hname.ne_point, hname.ne_points, Nat.not_lt.2 hname.short, hfree, Bool.false_eq_true, or_self,
      if_false]
  simp only [writeText, writeBytes, hlocation, tryPut_eq hsound, bind, Except.bind]

/-- What is above a directory is a directory. -/
theorem WellFormed.ancestor (hd : d.WellFormed) (h : d.get? (loc ++ names) = some .directory) :
    d.get? loc = some .directory := by
  induction names generalizing loc with
  | nil => rwa [List.append_nil] at h
  | cons name names ih =>
    rw [List.append_cons] at h
    exact hd.parent _ _ _ (ih h)

end Disk

namespace Path

variable {root name : String} {names : Location}

theorem under_cons : under root (name :: names) = under (join root name) names := rfl

/-- The last name is joined last. -/
theorem under_concat : under root (names ++ [name]) = join (under root names) name := by
  simp [under]

/-- The path of a place below the root is not empty. -/
theorem under_ne_empty (hr : root ≠ "") (h : ∀ x ∈ names, IsName x) : under root names ≠ "" := by
  induction names generalizing root with
  | nil => exact hr
  | cons name names ih =>
    rw [under_cons]
    exact ih (join_ne_empty (h name List.mem_cons_self) hr) fun x hx => h x (List.mem_cons_of_mem _ hx)

/-- The path of a place below the root does not hold the character that ends a name. -/
theorem noNul_under (hr : root ≠ "") (hn : '\x00' ∉ root.toList) (h : ∀ x ∈ names, IsName x) :
    '\x00' ∉ (under root names).toList := by
  induction names generalizing root with
  | nil => exact hn
  | cons name names ih =>
    have hname := h name List.mem_cons_self
    rw [under_cons]
    exact ih (join_ne_empty hname hr) (noNul_join hname hr hn) fun x hx => h x (List.mem_cons_of_mem _ hx)

end Path

/-- A path to the root goes on to every directory below it. -/
theorem Disk.LeadsTo.under {d : Disk} {root : String} {loc : Location} {names : List String} (h : d.LeadsTo root loc)
    (hd : d.WellFormed) (hr : root ≠ "") (hnames : ∀ x ∈ names, Path.IsName x)
    (hentry : d.get? (loc ++ names) = some .directory) : d.LeadsTo (Path.under root names) (loc ++ names) := by
  induction names generalizing root loc with
  | nil => rwa [List.append_nil]
  | cons name names ih =>
    have hname := hnames name List.mem_cons_self
    rw [List.append_cons] at hentry ⊢
    rw [Path.under_cons]
    exact ih (h.join hr hname (hd.ancestor hentry)) (Path.join_ne_empty hname hr)
      (fun x hx => hnames x (List.mem_cons_of_mem _ hx)) hentry

/-! ## The operations of a build -/

namespace Operation

/-- An operation that puts an entry under names below a root. -/
inductive Puts (root : String) : Operation → Location → Entry → Prop
  | directory (names : Location) : Puts root (.directory (Path.under root names)) names .directory
  | file (names : Location) {text : String} : Puts root (.file (Path.under root names) (.ok text)) names (.file text.toUTF8)
  | link (names : Location) {target : String} {source : EdgeSource} :
      Puts root (.link target (Path.under root names) source) names (.link target)

/-- What operations put below a root, in their order. -/
inductive Writes (root : String) : List Operation → List (Location × Entry) → Prop
  | nil : Writes root [] []
  | put {op : Operation} {ops : List Operation} {names : Location} {e : Entry} {items : List (Location × Entry)}
      (puts : Puts root op names e) (rest : Writes root ops items) : Writes root (op :: ops) ((names, e) :: items)
  | nodeDone {id : Nat} {kind : String} {ops : List Operation} {items : List (Location × Entry)}
      (rest : Writes root ops items) : Writes root (.nodeDone id kind :: ops) items
  | linksDone {directory : String} {edges : Nat} {ops : List Operation} {items : List (Location × Entry)}
      (rest : Writes root ops items) : Writes root (.linksDone directory edges :: ops) items

/-- Each entry stands in a directory: in one of the directories seen, or in one that is written before it. -/
def Ordered : List Location → List (Location × Entry) → Prop
  | _, [] => True
  | seen, (names, e) :: items =>
    (∃ above name, names = above ++ [name] ∧ above ∈ seen) ∧ Ordered (if e = .directory then names :: seen else seen) items

/-- An entry that the file system takes: its names, its path and the target of a link. -/
structure Fits (root : String) (item : Location × Entry) : Prop where
  names : ∀ name ∈ item.1, Path.IsName name
  path : (Path.under root item.1).utf8ByteSize ≤ Disk.maxPath
  target : ∀ target, item.2 = .link target → Disk.checkPath target = .ok ()

variable {root : String} {loc : Location} {p : Progress}

/-- One operation puts its entry, if the directory is there, the name is free and the system does not fail. -/
theorem Puts.run_eq {op : Operation} {above : Location} {name : String} {e : Entry} (h : Puts root op (above ++ [name]) e)
    (hd : p.disk.WellFormed) (hroot : p.disk.LeadsTo root loc) (hc : Disk.checkPath root = .ok ())
    (hfits : Fits root (above ++ [name], e)) (hdirectory : p.disk.get? (loc ++ above) = some .directory)
    (hfree : p.disk.get? (loc ++ above ++ [name]) = none) (hsound : p.disk.defects[loc ++ above ++ [name]]? = none) :
    op.run p = .ok { p with disk := p.disk.put (loc ++ above ++ [name]) e } := by
  obtain ⟨hnul, hempty, -⟩ := Disk.checkPath_eq_ok.1 hc
  have hname : Path.IsName name := hfits.names name (by simp)
  have habove : ∀ x ∈ above, Path.IsName x := fun x hx => hfits.names x (by simp [hx])
  have hb := Path.under_ne_empty hempty habove
  have hlead := hroot.under hd hempty habove hdirectory
  have hpath : Disk.checkPath (Path.join (Path.under root above) name) = .ok () :=
    Disk.checkPath_eq_ok.2 ⟨Path.noNul_join hname hb (Path.noNul_under hempty hnul habove), Path.join_ne_empty hname hb,
      Path.under_concat ▸ hfits.path⟩
  generalize hnames : above ++ [name] = names at h hfits
  cases h with
  | directory =>
    rw [← hnames, Path.under_concat, run, Disk.makeDirectory_eq (Disk.freeLocation_join hb hname hpath hlead hfree) hsound]
    rfl
  | file =>
    rw [← hnames, Path.under_concat, run]
    simp only [mapError_ok, bind, Except.bind, Disk.writeText_join _ hb hname hpath hlead hfree hsound]
    rfl
  | link =>
    rw [← hnames, Path.under_concat, run, Disk.linkEdge,
      Disk.makeLink_join hb hname hpath hlead hfree hsound (hfits.target _ rfl)]
    rfl

theorem Writes.append {ops ops' : List Operation} {items items' : List (Location × Entry)} (h : Writes root ops items)
    (h' : Writes root ops' items') : Writes root (ops ++ ops') (items ++ items') := by
  induction h with
  | nil => exact h'
  | put puts _ ih => exact .put puts ih
  | nodeDone _ ih => exact .nodeDone ih
  | linksDone _ ih => exact .linksDone ih

theorem writes_flatMap {α : Type} {l : List α} {f : α → List Operation} {g : α → List (Location × Entry)}
    (h : ∀ x ∈ l, Writes root (f x) (g x)) : Writes root (l.flatMap f) (l.flatMap g) := by
  induction l with
  | nil => exact .nil
  | cons x l ih =>
    rw [List.flatMap_cons, List.flatMap_cons]
    exact (h x List.mem_cons_self).append (ih fun y hy => h y (List.mem_cons_of_mem _ hy))

/-- Entries in directories that have been seen are in order. -/
theorem ordered_of_seen {seen : List Location} {items : List (Location × Entry)}
    (h : ∀ item ∈ items, ∃ above name, item.1 = above ++ [name] ∧ above ∈ seen) : Ordered seen items := by
  induction items generalizing seen with
  | nil => trivial
  | cons item items ih =>
    refine ⟨h item List.mem_cons_self, ih fun next hnext => ?_⟩
    obtain ⟨above, name, hnames, habove⟩ := h next (List.mem_cons_of_mem _ hnext)
    refine ⟨above, name, hnames, ?_⟩
    split
    · exact List.mem_cons_of_mem _ habove
    · exact habove

/-- What follows may stand in the directories that were seen and in those that were put. -/
theorem ordered_append {seen : List Location} {items items' : List (Location × Entry)} (h : Ordered seen items)
    (h' : ∀ seen', seen ⊆ seen' → (∀ item ∈ items, item.2 = .directory → item.1 ∈ seen') → Ordered seen' items') :
    Ordered seen (items ++ items') := by
  induction items generalizing seen with
  | nil => exact h' seen (List.Subset.refl _) fun item hitem => nomatch hitem
  | cons item items ih =>
    refine ⟨h.1, ih h.2 fun seen' hsub hput => h' seen' ?_ ?_⟩
    · intro l hl
      refine hsub ?_
      split
      · exact List.mem_cons_of_mem _ hl
      · exact hl
    · intro next hnext hdirectory
      rcases List.mem_cons.1 hnext with rfl | hnext
      · exact hsub (by rw [if_pos hdirectory]; exact List.mem_cons_self)
      · exact hput next hnext hdirectory

/-- The first entries are in order without the later ones. -/
theorem Ordered.left {seen : List Location} {items items' : List (Location × Entry)} (h : Ordered seen (items ++ items')) :
    Ordered seen items := by
  induction items generalizing seen with
  | nil => trivial
  | cons item items ih => exact ⟨h.1, ih h.2⟩

/-- No entry is the root itself. -/
theorem Ordered.ne_nil {seen : List Location} {items : List (Location × Entry)} (h : Ordered seen items) :
    ∀ item ∈ items, item.1 ≠ [] := by
  induction items generalizing seen with
  | nil => nofun
  | cons item items ih =>
    intro next hnext
    rcases List.mem_cons.1 hnext with rfl | hnext
    · obtain ⟨⟨above, name, hnames, -⟩, -⟩ := h
      rw [hnames]
      simp
    · exact ih h.2 next hnext

/-- Operations go on where others ended. -/
theorem runAll_append {ops ops' : List Operation} {p p' : Progress} (h : runAll ops p = (.ok (), p')) :
    runAll (ops ++ ops') p = runAll ops' p' := by
  induction ops generalizing p with
  | nil =>
    cases h
    rfl
  | cons op ops ih =>
    rw [List.cons_append, runAll]
    rw [runAll] at h
    cases hrun : op.run p with
    | ok next =>
      rw [hrun] at h
      exact ih h
    | error f =>
      rw [hrun] at h
      cases h

/-- All operations succeed and put exactly their entries. -/
theorem Writes.runAll_eq {ops : List Operation} {items : List (Location × Entry)} (h : Writes root ops items) {seen : List Location}
    (hd : p.disk.WellFormed) (hroot : p.disk.LeadsTo root loc) (hc : Disk.checkPath root = .ok ())
    (hseen : ∀ l ∈ seen, p.disk.get? (loc ++ l) = some .directory) (hordered : Ordered seen items)
    (hfree : ∀ item ∈ items, p.disk.get? (loc ++ item.1) = none) (hdistinct : (items.map Prod.fst).Nodup)
    (hfits : ∀ item ∈ items, Fits root item) (hsound : p.disk.defects = ∅) (hpresent : p.present = 0) :
    ∃ p', runAll ops p = (.ok (), p') ∧ Disk.Grows p.disk p'.disk ∧ p'.duplicates = p.duplicates ∧
      ∀ names e, p'.disk.get? (loc ++ names) = some e ↔ p.disk.get? (loc ++ names) = some e ∨ (names, e) ∈ items := by
  induction h generalizing p seen with
  | nil => exact ⟨p, rfl, .refl, rfl, by simp⟩
  | @put op ops names e items puts rest ih =>
    obtain ⟨⟨above, name, rfl, habove⟩, hordered⟩ := hordered
    have hdirectory := hseen above habove
    have hname : p.disk.get? (loc ++ above ++ [name]) = none := by
      rw [List.append_assoc]
      exact hfree _ List.mem_cons_self
    have hstep := puts.run_eq hd hroot hc (hfits _ List.mem_cons_self) hdirectory hname
      (by rw [hsound, Std.ExtTreeMap.getElem?_empty])
    have hgrows : Disk.Grows p.disk (p.disk.put (loc ++ above ++ [name]) e) := .add e .refl hdirectory hname
    have hkeys := List.nodup_cons.1 hdistinct
    obtain ⟨p', hrun, hgrows', hduplicates, hentries⟩ := ih (p := { p with disk := p.disk.put (loc ++ above ++ [name]) e })
      (hgrows.wellFormed hd) (hroot.mono hgrows.includes) (by
        intro l hl
        split at hl
        · rcases List.mem_cons.1 hl with rfl | hl
          · rename_i he
            rw [← List.append_assoc, Disk.get?_put_self, he]
          · exact hgrows.keeps (hseen l hl)
        · exact hgrows.keeps (hseen l hl)) hordered (by
        intro item hitem
        rw [Disk.get?_put_of_ne, hfree item (List.mem_cons_of_mem _ hitem)]
        intro hl
        rw [List.append_assoc, List.append_cancel_left_eq] at hl
        exact hkeys.1 (List.mem_map.2 ⟨item, hitem, hl⟩)) hkeys.2 (fun item hitem => hfits item (List.mem_cons_of_mem _ hitem))
      hsound hpresent
    refine ⟨p', ?_, hgrows.trans hgrows', hduplicates, fun names e' => ?_⟩
    · rw [runAll, hstep]
      exact hrun
    · rw [hentries, List.mem_cons, Prod.mk.injEq]
      by_cases hn : names = above ++ [name]
      · rw [hn, ← List.append_assoc, Disk.get?_put_self, hname]
        simp [eq_comm]
      · rw [Disk.get?_put_of_ne (by rw [List.append_assoc]; simpa using hn)]
        simp [hn]
  | nodeDone rest ih => exact ih hd hroot hseen hordered hfree hdistinct hfits hsound hpresent
  | linksDone rest ih =>
    obtain ⟨p', hrun, hgrows, hduplicates, hentries⟩ := ih (p := { p with
      events := p.events ++ [.edgesLinked _ _ p.present]
      present := 0
      duplicates := p.duplicates + p.present }) hd hroot hseen hordered hfree hdistinct hfits hsound rfl
    exact ⟨p', hrun, hgrows, by rw [hduplicates, hpresent]; rfl, hentries⟩

/-- Operations that write entries in order and under different names succeed at a fresh root, and the entries are all that stands
there. -/
theorem Writes.exists_run {disk : Disk} {ops : List Operation} {items : List (Location × Entry)} (h : Writes root ops items)
    (hdisk : disk.WellFormed) (hroot : disk.TakesRoot root) (hordered : Ordered [[]] items)
    (hdistinct : (items.map Prod.fst).Nodup) (hfits : ∀ item ∈ items, Fits root item) :
    ∃ start p loc, disk.hasEntry root = false ∧ Graph.makeRoot disk root = (.ok (), start) ∧
      runAll ops ⟨start, [], 0, 0⟩ = (.ok (), p) ∧ p.duplicates = 0 ∧ p.disk.LeadsTo root loc ∧
      p.disk.find false root = .ok (loc, .directory) ∧
      ∀ names e, names ≠ [] → (p.disk.get? (loc ++ names) = some e ↔ (names, e) ∈ items) := by
  obtain ⟨hentry, start, loc, hmake, hgrows, hleads, hfind, hempty⟩ := hroot.makeRoot hdisk
  have hstart := hgrows.wellFormed hdisk
  have hloc : ∀ l ∈ [[]], start.get? (loc ++ l) = some .directory := by
    simpa using hleads.directory hstart
  have hfree : ∀ item ∈ items, start.get? (loc ++ item.1) = none := fun item hitem => hempty _ (hordered.ne_nil item hitem)
  obtain ⟨p, hrun, hgrows', hduplicates, hentries⟩ :=
    h.runAll_eq (p := ⟨start, [], 0, 0⟩) hstart hleads hroot.accepted hloc hordered hfree hdistinct hfits
      (hgrows.defects.trans hroot.sound) rfl
  refine ⟨start, p, loc, hentry, hmake, hrun, hduplicates, hleads.mono hgrows'.includes,
    Disk.find_mono hgrows'.includes hfind,
    fun names e hnames => ?_⟩
  rw [hentries, hempty names hnames]
  simp

end Operation

end DispatchTree
