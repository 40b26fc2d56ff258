import Mathlib.Data.List.Induction
import DispatchTree.Proofs.Files.Additions
import DispatchTree.Proofs.Files.Build

/-!
# Builds keep what is there

A file is written over whatever stands under its path, and links on the way are followed. A build nevertheless changes nothing that
was there: each of its operations either fails or puts a new entry under a name that is free at that moment, below a root that the
build has created itself. This holds of every build, whatever fails on the way, and so of every sequence of builds. A file that cannot
be written to its end is a new entry as well, and where two nodes have one name the build ends at the second directory (`Guarded`).
-/

namespace DispatchTree

namespace Disk

variable {d : Disk} {k : Nat} {here : Location} {name p target : String} {above : List String}

/-- A fault that is not about an entry in the way. -/
theorem checkPath_ne_alreadyExists (p : String) : checkPath p ≠ .error .alreadyExists := by
  unfold checkPath
  split
  · nofun
  · split
    · nofun
    · split <;> nofun

/-- A new entry goes to the place of a free name, if the file system takes the name and the path. -/
theorem freeLocation_cases (forDirectory : Bool) (hn : Path.names p = above ++ [name]) (hpoint : name ≠ ".") (hup : name ≠ "..")
    (way : Way d maxLinks (startOf d.current p) above here k) (hfree : d.get? (here ++ [name]) = none) :
    (∃ f, f ≠ .alreadyExists ∧ d.freeLocation p forDirectory = .error f) ∨
      name.utf8ByteSize ≤ maxName ∧ d.freeLocation p forDirectory = .ok (here ++ [name]) := by
  cases hc : checkPath p with
  | error f =>
    refine .inl ⟨f, fun hf => checkPath_ne_alreadyExists p (hf ▸ hc), ?_⟩
    simp only [freeLocation, hc, bind, Except.bind]
  | ok _ =>
    simp only [freeLocation, hc, splitNames_of_names hn, walk_idle_iff.2 way, bind, Except.bind, hpoint, hup, or_self, if_false,
      hfree, Option.isSome_none, Bool.false_eq_true]
    split
    · exact .inl ⟨_, by decide, rfl⟩
    · rename_i hlong
      split
      · exact .inl ⟨_, by decide, rfl⟩
      · exact .inr ⟨Nat.not_lt.1 hlong, rfl⟩

/-- A file that is written where nothing stands is a new one. -/
theorem fileLocation_cases (hn : Path.names p = above ++ [name]) (hpoint : name ≠ ".") (hup : name ≠ "..")
    (way : Way d maxLinks (startOf d.current p) above here k) (hfree : d.get? (here ++ [name]) = none) :
    (∃ f, d.fileLocation p = .error f) ∨ name.utf8ByteSize ≤ maxName ∧ d.fileLocation p = .ok (here ++ [name]) := by
  cases hc : checkPath p with
  | error f =>
    refine .inl ⟨f, ?_⟩
    simp only [fileLocation, hc, bind, Except.bind]
  | ok _ =>
    simp only [fileLocation, hc, fileLocationWithin, splitNames_of_names hn, walk_idle_iff.2 way, bind, Except.bind, hpoint, hup,
      or_false, hfree]
    split
    · exact .inl ⟨_, rfl⟩
    · split
      · exact .inl ⟨_, rfl⟩
      · rename_i hlong
        exact .inr ⟨Nat.not_lt.1 hlong, rfl⟩

/-- A link under a free name fails because of the file system, or is put there. -/
theorem makeLink_cases (target : String) (hn : Path.names p = above ++ [name]) (hpoint : name ≠ ".") (hup : name ≠ "..")
    (way : Way d maxLinks (startOf d.current p) above here k) (hfree : d.get? (here ++ [name]) = none) :
    (∃ f, f ≠ .alreadyExists ∧ d.makeLink target p = .error f) ∨
      name.utf8ByteSize ≤ maxName ∧ d.makeLink target p = .ok (d.put (here ++ [name]) (.link target)) := by
  rw [makeLink]
  split
  · exact .inl ⟨_, by decide, rfl⟩
  · cases hc : checkPath target with
    | error f => exact .inl ⟨f, fun hf => checkPath_ne_alreadyExists target (hf ▸ hc), rfl⟩
    | ok _ =>
      rcases freeLocation_cases false hn hpoint hup way hfree with ⟨f, hne, hf⟩ | ⟨hshort, hl⟩
      · exact .inl ⟨f, hne, by simp only [hf, bind, Except.bind]⟩
      · rcases d.tryPut_cases (here ++ [name]) (.link target) with ⟨f, hf⟩ | hput
        · exact .inl ⟨.system f, by simp, by simp only [hl, hf, bind, Except.bind]⟩
        · exact .inr ⟨hshort, by simp only [hl, hput, bind, Except.bind]⟩

/-- No directory is created under a name that is taken. -/
theorem makeDirectory_of_taken (hn : Path.names p = above ++ [name]) (way : Way d maxLinks (startOf d.current p) above here k)
    (htaken : (d.get? (here ++ [name])).isSome) : ∃ f, d.makeDirectory p = .error f := by
  cases hmake : d.makeDirectory p with
  | error f => exact ⟨f, rfl⟩
  | ok d' =>
    obtain ⟨l, hl, -⟩ := exists_of_makeDirectory hmake
    obtain ⟨above', name', here', k', hn', -, -, -, way', hfree, -⟩ := exists_way_of_freeLocation hl
    rw [hn] at hn'
    obtain ⟨rfl, hname⟩ := List.append_inj' hn' rfl
    obtain rfl := (List.cons.inj hname).1
    obtain ⟨rfl, -⟩ := way.unique way'
    rw [hfree] at htaken
    cases htaken

/-- What is left of a file that could not be written where nothing stands: nothing, or a new file. -/
theorem afterFailedWrite_cases (content : ByteArray) (hn : Path.names p = above ++ [name]) (hpoint : name ≠ ".") (hup : name ≠ "..")
    (way : Way d maxLinks (startOf d.current p) above here k) (hfree : d.get? (here ++ [name]) = none) :
    d.afterFailedWrite p content = d ∨ ∃ e, d.afterFailedWrite p content = d.put (here ++ [name]) e := by
  rcases fileLocation_cases hn hpoint hup way hfree with ⟨f, hf⟩ | ⟨-, hl⟩
  · exact .inl (by simp only [afterFailedWrite, hf])
  · simp only [afterFailedWrite, hl]
    split
    · exact .inr ⟨_, rfl⟩
    · exact .inl rfl

/-- The fault of a link whose name is not taken. -/
theorem linkEdge_of_error {f : DiskFault} (source : EdgeSource) (hne : f ≠ .alreadyExists) (h : d.makeLink target p = .error f) :
    d.linkEdge target p source = .error (.disk p f) := by
  rw [linkEdge, h]
  cases f with
  | alreadyExists => exact absurd rfl hne
  | _ => rfl

/-- What is found at a path stands there. -/
theorem hasEntry_of_find {followed : Location × Entry} (h : d.find false p = .ok followed) : d.hasEntry p = true := by
  rw [hasEntry, h]
  rfl

/-- What stands at a path still does. -/
theorem hasEntry_mono {d' : Disk} (hg : Includes d d') (h : d.hasEntry p = true) : d'.hasEntry p = true := by
  obtain ⟨l, e, hfind⟩ := exists_find_of_hasEntry h
  exact hasEntry_of_find (find_mono hg hfind)

end Disk

/-! ## The operations of a build -/

namespace Operation

variable {root : String} {loc here : Location} {p : Progress}

/-- An operation whose name is free fails because of the file system, or puts its entry there. -/
theorem Puts.run_cases {op : Operation} {above : Location} {name : String} {e : Entry} (h : Puts root op (above ++ [name]) e)
    (hb : Path.under root above ≠ "") (hname : Path.IsPlain name) (hlead : p.disk.LeadsTo (Path.under root above) here)
    (hfree : p.disk.get? (here ++ [name]) = none) :
    (∃ path f, op.run p = .error (.disk path f)) ∨
      name.utf8ByteSize ≤ Disk.maxName ∧ op.run p = .ok { p with disk := p.disk.put (here ++ [name]) e } := by
  obtain ⟨k, way⟩ := hlead
  rw [Disk.startOf, ← hname.isAbsolute_join hb] at way
  have hn := hname.names_join hb
  have hpoint := hname.ne_point
  have hup := hname.ne_points
  generalize hnames : above ++ [name] = names at h
  cases h with
  | directory =>
    rw [← hnames, Path.under_concat, run]
    rcases Disk.freeLocation_cases true hn hpoint hup way hfree with ⟨f, -, hf⟩ | ⟨hshort, hl⟩
    · refine .inl ⟨Path.join (Path.under root above) name, f, ?_⟩
      simp only [Disk.makeDirectory, hf, bind, Except.bind]
      rfl
    · simp only [Disk.makeDirectory, hl, bind, Except.bind]
      rcases p.disk.tryPut_cases (here ++ [name]) .directory with ⟨f, hf⟩ | hput
      · exact .inl ⟨Path.join (Path.under root above) name, .system f, by rw [hf]; rfl⟩
      · exact .inr ⟨hshort, by rw [hput]; rfl⟩
  | @file _ text =>
    rw [← hnames, Path.under_concat, run]
    rcases Disk.fileLocation_cases hn hpoint hup way hfree with ⟨f, hf⟩ | ⟨hshort, hl⟩
    · refine .inl ⟨Path.join (Path.under root above) name, f, ?_⟩
      simp only [mapError_ok, Disk.writeText, Disk.writeBytes, hf, bind, Except.bind]
      rfl
    · simp only [mapError_ok, Disk.writeText, Disk.writeBytes, hl, bind, Except.bind]
      rcases p.disk.tryPut_cases (here ++ [name]) (.file text.toUTF8) with ⟨f, hf⟩ | hput
      · exact .inl ⟨Path.join (Path.under root above) name, .system f, by rw [hf]; rfl⟩
      · exact .inr ⟨hshort, by rw [hput]; rfl⟩
  | @link _ target source =>
    rw [← hnames, Path.under_concat, run]
    rcases Disk.makeLink_cases target hn hpoint hup way hfree with ⟨f, hne, hf⟩ | ⟨hshort, hl⟩
    · refine .inl ⟨Path.join (Path.under root above) name, f, ?_⟩
      rw [Disk.linkEdge_of_error source hne hf]
      rfl
    · refine .inr ⟨hshort, ?_⟩
      rw [Disk.linkEdge, hl]
      rfl

/-- What an operation leaves behind that fails under a free name: nothing, or a new entry. -/
theorem Puts.afterFailure_cases {op : Operation} {above : Location} {name : String} {e : Entry} (h : Puts root op (above ++ [name]) e)
    (hb : Path.under root above ≠ "") (hname : Path.IsPlain name) (hlead : p.disk.LeadsTo (Path.under root above) here)
    (hfree : p.disk.get? (here ++ [name]) = none) :
    (op.afterFailure p).disk = p.disk ∨ ∃ e', (op.afterFailure p).disk = p.disk.put (here ++ [name]) e' := by
  obtain ⟨k, way⟩ := hlead
  rw [Disk.startOf, ← hname.isAbsolute_join hb] at way
  generalize hnames : above ++ [name] = names at h
  cases h with
  | directory => exact .inl rfl
  | @file _ text =>
    rw [← hnames, Path.under_concat]
    exact Disk.afterFailedWrite_cases text.toUTF8 (hname.names_join hb) hname.ne_point hname.ne_points way hfree
  | link => exact .inl rfl

/-- A directory whose name is taken is not created. -/
theorem Puts.run_of_taken {op : Operation} {above : Location} {name : String} (h : Puts root op (above ++ [name]) .directory)
    (hb : Path.under root above ≠ "") (hname : Path.IsPlain name) (hlead : p.disk.LeadsTo (Path.under root above) here)
    (htaken : (p.disk.get? (here ++ [name])).isSome) :
    (∃ path f, op.run p = .error (.disk path f)) ∧ op.afterFailure p = p := by
  obtain ⟨k, way⟩ := hlead
  rw [Disk.startOf, ← hname.isAbsolute_join hb] at way
  generalize hnames : above ++ [name] = names at h
  cases h with
  | directory =>
    rw [← hnames, Path.under_concat, run]
    obtain ⟨f, hf⟩ := Disk.makeDirectory_of_taken (hname.names_join hb) way htaken
    exact ⟨⟨Path.join (Path.under root above) name, f, by rw [hf]; rfl⟩, rfl⟩

/-- The names up to a directory that was put lead to it. -/
theorem leadsTo_under_concat {d : Disk} {above : Location} {name : String} (hb : Path.under root above ≠ "")
    (hname : Path.IsPlain name) (hshort : name.utf8ByteSize ≤ Disk.maxName) (hlead : d.LeadsTo (Path.under root above) here)
    (hentry : d.get? (here ++ [name]) = some .directory) : d.LeadsTo (Path.under root (above ++ [name])) (here ++ [name]) := by
  obtain ⟨k, way⟩ := hlead
  rw [Disk.startOf, ← hname.isAbsolute_join hb] at way
  rw [Path.under_concat]
  exact Disk.leadsTo_of_names (hname.names_join hb) hname.ne_point hname.ne_points hshort way hentry

/-- Entries are put under names that are not taken, up to the first directory whose name is. -/
def Guarded : List Location → List (Location × Entry) → Prop
  | _, [] => True
  | taken, (names, e) :: items => if names ∈ taken then e = .directory else Guarded (names :: taken) items

/-- Entries with different names, none of which is taken. -/
theorem guarded_of_nodup {items : List (Location × Entry)} {taken : List Location} (hdistinct : (items.map Prod.fst).Nodup)
    (hfree : ∀ item ∈ items, item.1 ∉ taken) : Guarded taken items := by
  induction items generalizing taken with
  | nil => trivial
  | cons item items ih =>
    obtain ⟨hnew, hrest⟩ := List.nodup_cons.1 hdistinct
    rw [Guarded, if_neg (hfree item List.mem_cons_self)]
    refine ih hrest fun next hnext hmem => ?_
    rcases List.mem_cons.1 hmem with hsame | hold
    · exact hnew (hsame ▸ List.mem_map_of_mem hnext)
    · exact hfree next (List.mem_cons_of_mem _ hnext) hold

/-- What follows finds the names taken under which something was put before. -/
theorem guarded_append {items items' : List (Location × Entry)} {taken : List Location} (h : Guarded taken items)
    (h' : ∀ taken', taken ⊆ taken' → (∀ item ∈ items, item.1 ∈ taken') → Guarded taken' items') : Guarded taken (items ++ items') := by
  induction items generalizing taken with
  | nil => exact h' taken (List.Subset.refl _) nofun
  | cons item items ih =>
    rw [Guarded] at h
    rw [List.cons_append, Guarded]
    split
    · rwa [if_pos ‹_›] at h
    · rw [if_neg ‹_›] at h
      refine ih h fun taken' hsub hitems => h' taken' (fun l hl => hsub (List.mem_cons_of_mem _ hl)) fun next hnext => ?_
      rcases List.mem_cons.1 hnext with rfl | hnext
      · exact hsub List.mem_cons_self
      · exact hitems next hnext

/-- How far a build has come: the directories that were seen can be reached, and of the names under which entries are still to be put
those are taken that are listed as taken. -/
structure Underway (root : String) (loc : Location) (seen taken : List Location) (items : List (Location × Entry)) (d : Disk) :
    Prop where
  wellFormed : d.WellFormed
  reached : ∀ l ∈ seen, Path.under root l ≠ "" ∧ d.LeadsTo (Path.under root l) (loc ++ l)
  taken_iff : ∀ item ∈ items, (d.get? (loc ++ item.1)).isSome ↔ item.1 ∈ taken

section

variable {seen taken : List Location} {above : Location} {name : String} {e : Entry} {items : List (Location × Entry)} {d : Disk}

/-- An entry under a free name of a directory that was seen is one below the root. -/
theorem Underway.growsBy_put (h : Underway root loc seen taken ((above ++ [name], e) :: items) d) (habove : above ∈ seen)
    (hfree : d.get? (loc ++ above ++ [name]) = none) (e' : Entry) :
    Disk.GrowsBy (fun l _ => loc <+: l) d (d.put (loc ++ above ++ [name]) e') := by
  refine Disk.growsBy_put ((h.reached above habove).2.directory h.wellFormed) hfree ?_
  rw [List.append_assoc]
  exact List.prefix_append _ _

/-- When an entry is put its name is taken, and if it is a directory it has been seen. -/
theorem Underway.put (h : Underway root loc seen taken ((above ++ [name], e) :: items) d) (habove : above ∈ seen)
    (hname : Path.IsPlain name) (hshort : name.utf8ByteSize ≤ Disk.maxName) (hfree : d.get? (loc ++ above ++ [name]) = none) :
    Underway root loc (if e = .directory then (above ++ [name]) :: seen else seen) ((above ++ [name]) :: taken) items
      (d.put (loc ++ above ++ [name]) e) := by
  have hgrows := (h.growsBy_put habove hfree e).grows
  have hold : ∀ l ∈ seen, Path.under root l ≠ "" ∧ (d.put (loc ++ above ++ [name]) e).LeadsTo (Path.under root l) (loc ++ l) :=
    fun l hl => ⟨(h.reached l hl).1, (h.reached l hl).2.mono hgrows.includes⟩
  refine ⟨hgrows.wellFormed h.wellFormed, fun l hl => ?_, fun item hitem => ?_⟩
  · split at hl
    · rcases List.mem_cons.1 hl with rfl | hl
      · rename_i he
        have hb := (hold above habove).1
        rw [← List.append_assoc]
        refine ⟨?_, leadsTo_under_concat hb hname hshort (hold above habove).2 (by rw [Disk.get?_put_self, he])⟩
        rw [Path.under_concat]
        exact hname.join_ne_empty hb
      · exact hold l hl
    · exact hold l hl
  · by_cases hsame : item.1 = above ++ [name]
    · rw [hsame, ← List.append_assoc, Disk.get?_put_self]
      exact ⟨fun _ => List.mem_cons_self, fun _ => rfl⟩
    · rw [Disk.get?_put_of_ne (by rw [List.append_assoc]; simpa using hsame), h.taken_iff item (List.mem_cons_of_mem _ hitem),
        List.mem_cons, or_iff_right hsame]

end

/-- Operations add their entries below the root, as far as they come, and only the file system ends them. The induction is on the
operations, and how far the build has come is kept by each of them. -/
theorem Writes.growsBy {ops : List Operation} {items : List (Location × Entry)} (h : Writes root ops items) {seen taken : List Location}
    (hunderway : Underway root loc seen taken items p.disk) (hordered : Ordered seen items) (hguarded : Guarded taken items)
    (hplain : ∀ item ∈ items, ∀ name ∈ item.1, Path.IsPlain name) :
    Disk.GrowsBy (fun l _ => loc <+: l) p.disk (runAll ops p).2.disk ∧
      ∀ fault, (runAll ops p).1 = .error fault → ∃ path f, fault = .disk path f := by
  induction h generalizing p seen taken with
  | nil => exact ⟨.refl, fun _ h => nomatch h⟩
  | @put op ops names e items puts rest ih =>
    obtain ⟨⟨above, name, rfl, habove⟩, hordered⟩ := hordered
    obtain ⟨hb, hlead⟩ := hunderway.reached above habove
    have hname : Path.IsPlain name := hplain _ List.mem_cons_self name (by simp)
    have hentry := hunderway.taken_iff _ List.mem_cons_self
    rw [← List.append_assoc] at hentry
    rw [runAll]
    rw [Guarded] at hguarded
    split at hguarded
    · -- the name is taken, and the build ends
      rename_i hmem
      subst hguarded
      obtain ⟨⟨path, f, hf⟩, hafter⟩ := puts.run_of_taken hb hname hlead (hentry.2 hmem)
      rw [hf]
      dsimp only
      rw [hafter]
      exact ⟨.refl, fun _ h => ⟨path, f, (Except.error.inj h).symm⟩⟩
    · rename_i hmem
      have hfree : p.disk.get? (loc ++ above ++ [name]) = none :=
        Option.not_isSome_iff_eq_none.1 fun hsome => hmem (hentry.1 hsome)
      rcases puts.run_cases hb hname hlead hfree with ⟨path, f, hf⟩ | ⟨hshort, hrun⟩
      · rw [hf]
        refine ⟨?_, fun _ h => ⟨path, f, (Except.error.inj h).symm⟩⟩
        rcases puts.afterFailure_cases hb hname hlead hfree with hsame | ⟨e', hnew⟩
        · dsimp only
          rw [hsame]
          exact .refl
        · dsimp only
          rw [hnew]
          exact hunderway.growsBy_put habove hfree e'
      · rw [hrun]
        exact (ih (p := { p with disk := p.disk.put (loc ++ above ++ [name]) e }) (hunderway.put habove hname hshort hfree) hordered
          hguarded fun item hitem => hplain item (List.mem_cons_of_mem _ hitem)).imp_left (hunderway.growsBy_put habove hfree e).trans
  | @nodeDone id kind ops items rest ih =>
    exact ih (p := { p with events := p.events ++ [.nodeWritten id kind] }) hunderway hordered hguarded hplain
  | @linksDone directory edges ops items rest ih =>
    exact ih (p := { p with
      events := p.events ++ [.edgesLinked directory edges p.present]
      present := 0
      duplicates := p.duplicates + p.present }) hunderway hordered hguarded hplain

end Operation

/-! ## One build -/

/-- The members of a list have different keys, or there is a first one whose key was there before. -/
theorem nodup_or_exists_repeated {α β : Type} [DecidableEq β] (key : α → β) (l : List α) :
    (l.map key).Nodup ∨ ∃ before x after, l = before ++ x :: after ∧ (before.map key).Nodup ∧ key x ∈ before.map key := by
  induction l using List.reverseRecOn with
  | nil => exact .inl .nil
  | append_singleton l x ih =>
    rcases ih with hl | ⟨before, y, after, rfl, hbefore, hy⟩
    · by_cases hx : key x ∈ l.map key
      · exact .inr ⟨l, x, [], rfl, hl, hx⟩
      · refine .inl ?_
        rw [List.map_append, List.nodup_append]
        refine ⟨hl, by simp, fun a ha b hb hab => hx ?_⟩
        rw [List.map_singleton, List.mem_singleton] at hb
        rwa [← hb, ← hab]
    · exact .inr ⟨before, y, after ++ [x], by simp, hbefore, hy⟩

/-- An entry that a build at a root may add: the root, if it was not there before, or something below it, or a directory that the
first names of the root lead to. -/
def Disk.AddedFor (before after : Disk) (root : String) (l : Location) (e : Entry) : Prop :=
  (∃ loc, before.get? loc = none ∧ after.LeadsTo root loc ∧ loc <+: l) ∨ e = .directory ∧ after.OnPath root l

namespace Graph

variable {g : Graph} {d : Display} {disk : Disk} {root : String}

/-- The names of entries are those of the programs, tags and keys. -/
theorem isPlain_items {item : Location × Entry} (h : item ∈ g.items d) : ∀ name ∈ item.1, Path.IsPlain name := by
  have hprogram : ∀ name ∈ [initFile, postInitFile, executeFile], Path.IsPlain name := fun name h => (isName_program h).isPlain
  obtain ⟨names, e⟩ := item
  simp only [items, List.mem_append, List.mem_flatMap, List.mem_cons, List.not_mem_nil, or_false, nodeItems, Prod.mk.injEq] at h
  rcases h with (((⟨rfl, -⟩ | ⟨rfl, -⟩) | ⟨n, -, ⟨rfl, -⟩ | ⟨rfl, -⟩⟩) | ⟨n, -, h⟩) | h
  · simpa using hprogram _ (by simp)
  · simpa using hprogram _ (by simp)
  · simpa using isPlain_tag _
  · simpa using ⟨isPlain_tag _, hprogram _ (by simp)⟩
  · obtain ⟨key, hkey, -, -, rfl, -⟩ := mem_linkItems.1 h
    simpa using ⟨isPlain_tag _, (SymbolPair.isName_key hkey).isPlain⟩
  · obtain ⟨key, hkey, -, -, rfl, -⟩ := mem_linkItems.1 h
    simpa using (SymbolPair.isName_key hkey).isPlain

/-- If the tag of a node was there before, the build ends at its directory; otherwise all names are different. -/
theorem guarded_items (g : Graph) (d : Display) : Operation.Guarded [] (g.items d) := by
  rcases nodup_or_exists_repeated (fun n : Node => tag n.id) g.nodes with hids | ⟨before, n, later, hnodes, hbefore, hn⟩
  · exact Operation.guarded_of_nodup (nodup_items_of_pairwise (List.pairwise_map.1 hids) d) fun item _ => List.not_mem_nil
  · -- the entries before the repeated node are the first ones of the graph that ends there
    have hdistinct := nodup_items_of_pairwise (g := { g with nodes := before }) (List.pairwise_map.1 hbefore) d
    rw [items_eq_append, List.append_assoc, List.map_append, List.nodup_append] at hdistinct
    obtain ⟨rest, hrest⟩ : ∃ rest, g.items d = g.programItems d before ++ ([tag n.id], .directory) :: rest := by
      rw [items_eq_append, programItems, hnodes, List.flatMap_append, List.flatMap_cons, nodeItems]
      simp only [programItems, List.append_assoc]
      exact ⟨_, rfl⟩
    rw [hrest]
    refine Operation.guarded_append (Operation.guarded_of_nodup hdistinct.1 fun item _ => List.not_mem_nil) fun taken _ htaken => ?_
    obtain ⟨first, hfirst, htag⟩ := List.mem_map.1 hn
    have hmem : [tag n.id] ∈ taken := by
      rw [← htag]
      exact htaken _ (List.mem_append_right _ (List.mem_flatMap.2 ⟨first, hfirst, List.mem_cons_self⟩))
    rw [Operation.Guarded, if_pos hmem]

/-- The operations of a build add entries below a root that is empty, and only the file system ends them, if all programs can be
rendered. -/
theorem runAll_operations (hrender : ∀ n ∈ g.nodes, n.program.render d = .ok (textOf d n.program)) (hdisk : disk.WellFormed)
    {loc : Location} (hr : root ≠ "") (hlead : disk.LeadsTo root loc) (hempty : ∀ names ≠ [], disk.get? (loc ++ names) = none) :
    Disk.GrowsBy (fun l _ => loc <+: l) disk (Operation.runAll (g.operations d root) ⟨disk, [], 0, 0⟩).2.disk ∧
      ∀ fault, (Operation.runAll (g.operations d root) ⟨disk, [], 0, 0⟩).1 = .error fault → ∃ path f, fault = .disk path f := by
  have hseen : ∀ l ∈ [[]], Path.under root l ≠ "" ∧ disk.LeadsTo (Path.under root l) (loc ++ l) := by
    intro l hl
    rw [List.mem_singleton.1 hl, List.append_nil]
    exact ⟨hr, hlead⟩
  have hordered := ordered_items g d
  have htaken : ∀ item ∈ g.items d, (disk.get? (loc ++ item.1)).isSome ↔ item.1 ∈ [] := by
    intro item hitem
    rw [hempty _ (hordered.ne_nil item hitem)]
    simp
  exact (writes_operations_of_render hrender).growsBy (p := ⟨disk, [], 0, 0⟩) ⟨hdisk, hseen, htaken⟩ hordered (guarded_items g d)
    fun item => isPlain_items

/-- The operations of a build below an empty root add entries below the root only. -/
theorem growsBy_operations (hd : 0 < d.columns) (hdisk : disk.WellFormed) {loc : Location} (hr : root ≠ "")
    (hlead : disk.LeadsTo root loc) (hempty : ∀ names ≠ [], disk.get? (loc ++ names) = none) :
    Disk.GrowsBy (fun l _ => loc <+: l) disk (Operation.runAll (g.operations d root) ⟨disk, [], 0, 0⟩).2.disk :=
  (runAll_operations (fun n _ => render_eq hd n.program) hdisk hr hlead hempty).1

/-- What a build writes: all of it is new, and where it succeeds there is a root afterwards. -/
theorem growsBy_materialize (hd : 0 < d.columns) (hdisk : disk.WellFormed) (root : String) :
    Disk.GrowsBy (disk.AddedFor (g.materialize d root disk).2.1 root) disk (g.materialize d root disk).2.1 ∧
      ∀ summary, (g.materialize d root disk).1 = .ok summary → (g.materialize d root disk).2.1.hasEntry root = true := by
  unfold materialize
  split
  · exact ⟨.refl, fun _ h => nomatch h⟩
  · have hmake := growsBy_makeRoot root hdisk
    split
    · rename_i f disk₁ hroot
      rw [hroot] at hmake
      exact ⟨hmake.imp fun l e h => .inr h, fun _ h => nomatch h⟩
    · rename_i disk₁ hroot
      rw [hroot] at hmake
      obtain ⟨hc, loc, hnew, hlead, hfind, hempty⟩ := exists_root_of_makeRoot hdisk hroot
      have hrun := growsBy_operations (g := g) hd (hmake.grows.wellFormed hdisk) (Disk.checkPath_eq_ok.1 hc).2.1 hlead hempty
      have hall : Disk.GrowsBy
          (disk.AddedFor (Operation.runAll (g.operations d root) ⟨disk₁, [], 0, 0⟩).2.disk root) disk
          (Operation.runAll (g.operations d root) ⟨disk₁, [], 0, 0⟩).2.disk :=
        (hmake.imp fun l e h => .inr ⟨h.1, h.2.mono hrun.grows.includes⟩).trans
          (hrun.imp fun l e h => .inl ⟨loc, hnew, hlead.mono hrun.grows.includes, h⟩)
      have hentry := Disk.hasEntry_of_find (Disk.find_mono hrun.grows.includes hfind)
      split
      · rename_i p hfail
        rw [hfail] at hall
        exact ⟨hall, fun _ h => nomatch h⟩
      · rename_i p hdone
        rw [hdone] at hall hentry
        split
        · exact ⟨hall, fun _ h => nomatch h⟩
        · exact ⟨hall, fun _ _ => hentry⟩

end Graph

/-- Where nothing stands at its root, the build of a machine is that of its graph. -/
theorem Machine.build_of_hasEntry (m : Machine) (d : Display) {disk : Disk} {root : String} (h : disk.hasEntry root = false) :
    (m.build d root disk).1 = (m.graph.materialize d root disk).1 ∧
      (m.build d root disk).2.1 = (m.graph.materialize d root disk).2.1 := by
  simp only [Machine.build, h, m.plan_eq, Bool.false_eq_true, if_false, and_self]

/-- A build leaves what was there and adds what belongs to its root. Where it succeeds, there is a root afterwards. -/
theorem Machine.growsBy_build (m : Machine) {d : Display} (hd : 0 < d.columns) {disk : Disk} (hdisk : disk.WellFormed)
    (root : String) :
    Disk.GrowsBy (disk.AddedFor (m.build d root disk).2.1 root) disk (m.build d root disk).2.1 ∧
      ∀ summary, (m.build d root disk).1 = .ok summary → (m.build d root disk).2.1.hasEntry root = true := by
  cases hentry : disk.hasEntry root with
  | true =>
    rw [Machine.build, if_pos hentry]
    exact ⟨.refl, fun _ h => by cases h⟩
  | false =>
    obtain ⟨heq, hdisk'⟩ := m.build_of_hasEntry d hentry
    rw [heq, hdisk']
    exact Graph.growsBy_materialize hd hdisk root

/-! ## Sequences of builds -/

/-- A call that builds a machine on a display with columns, and where the system fails while it is carried out. -/
structure BuildCall where
  machine : Machine
  display : Display
  root : String
  columns : 0 < display.columns
  defects : Std.ExtTreeMap Location Defect := ∅

namespace Disk

/-- The disk with other defects. -/
def withDefects (d : Disk) (defects : Std.ExtTreeMap Location Defect) : Disk := { d with defects }

variable {d d' : Disk} {defects : Std.ExtTreeMap Location Defect} {root : String} {l : Location} {e : Entry}

/-- The entries are the same with other defects. -/
theorem includes_withDefects : Includes d (d.withDefects defects) := ⟨rfl, fun _ _ h => h⟩

/-- A disk stays well formed with other defects. -/
theorem WellFormed.withDefects (h : d.WellFormed) (defects : Std.ExtTreeMap Location Defect) : (d.withDefects defects).WellFormed :=
  ⟨h.current, h.parent⟩

/-- A disk grows by the same entries with other defects. -/
theorem Grows.withDefects (h : Grows d d') : Grows (d.withDefects defects) (d'.withDefects defects) := by
  induction h with
  | refl => exact .refl
  | add e _ hdirectory hfree ih => exact .add e ih hdirectory hfree

/-- What a build may add does not depend on defects. -/
theorem AddedFor.withDefects (h : d.AddedFor d' root l e) : d.AddedFor (d'.withDefects defects) root l e := by
  rcases h with ⟨loc, hnew, hlead, hbelow⟩ | ⟨hdirectory, hpath⟩
  · exact .inl ⟨loc, hnew, hlead.mono includes_withDefects, hbelow⟩
  · exact .inr ⟨hdirectory, hpath.mono includes_withDefects⟩

end Disk

namespace BuildCall

/-- Carries out a call. -/
def run (c : BuildCall) (disk : Disk) : Except BuildFault BuildSummary × Disk × List Occurrence :=
  let (result, after, occurrences) := c.machine.build c.display c.root (disk.withDefects c.defects)
  (result, after.withDefects disk.defects, occurrences)

/-- The disk after calls. -/
def runAll (disk : Disk) (calls : List BuildCall) : Disk := calls.foldl (fun disk c => (c.run disk).2.1) disk

variable {disk : Disk} {calls : List BuildCall} {c : BuildCall}

theorem runAll_singleton (c : BuildCall) (disk : Disk) : runAll disk [c] = (c.run disk).2.1 := rfl

/-- Calls one after the other: the later ones start from the disk that the earlier ones leave. -/
theorem runAll_append (disk : Disk) (calls later : List BuildCall) :
    runAll disk (calls ++ later) = runAll (runAll disk calls) later :=
  List.foldl_append

/-- A call leaves what was there and adds what belongs to its root. Where it succeeds, there is a root afterwards. -/
theorem growsBy_run (c : BuildCall) (hdisk : disk.WellFormed) :
    Disk.GrowsBy (disk.AddedFor (c.run disk).2.1 c.root) disk (c.run disk).2.1 ∧
      ∀ summary, (c.run disk).1 = .ok summary → (c.run disk).2.1.hasEntry c.root = true := by
  obtain ⟨hgrows, hroot⟩ := c.machine.growsBy_build c.columns (hdisk.withDefects c.defects) c.root
  refine ⟨⟨hgrows.grows.withDefects, fun l e hentry => ?_⟩, fun summary hok => ?_⟩
  · exact (hgrows.added l e hentry).imp_right Disk.AddedFor.withDefects
  · exact Disk.hasEntry_mono Disk.includes_withDefects (hroot summary hok)

/-- A call removes nothing and overwrites nothing. -/
theorem grows_run (c : BuildCall) (hdisk : disk.WellFormed) : Disk.Grows disk (c.run disk).2.1 := (c.growsBy_run hdisk).1.grows

/-- Calls only add entries. -/
theorem grows_runAll (calls : List BuildCall) (hdisk : disk.WellFormed) : Disk.Grows disk (runAll disk calls) := by
  induction calls generalizing disk with
  | nil => exact .refl
  | cons c calls ih =>
    have hgrows := grows_run c hdisk
    exact hgrows.trans (ih (hgrows.wellFormed hdisk))

/-- A call succeeds where its tree can be written and the system does not fail, and the root is a directory afterwards. -/
theorem exists_run (hm : c.machine.catalog.size ≤ Catalog.capacity) (hsound : c.defects = ∅) (hdisk : disk.WellFormed)
    (hroot : disk.TakesRoot c.root) (hfits : c.machine.graph.Fits c.display c.root) :
    ∃ summary loc, (c.run disk).1 = .ok summary ∧ (c.run disk).2.1.find false c.root = .ok (loc, .directory) := by
  have hsame : disk.withDefects c.defects = disk := by rw [hsound, ← hroot.sound, Disk.withDefects]
  obtain ⟨hentry, summary, after, loc, hresult, hafter, -, -, -, -, -, hfind, -⟩ :=
    Graph.materialize_eq c.columns (c.machine.closed_graph hm) hdisk hroot hfits
  obtain ⟨heq, hdisk'⟩ := c.machine.build_of_hasEntry c.display hentry
  refine ⟨summary, loc, ?_, ?_⟩
  · rw [run, hsame]
    exact heq.trans hresult
  · rw [run, hsame]
    exact Disk.find_mono Disk.includes_withDefects ((hdisk'.trans hafter).symm ▸ hfind)

/-- A call at a root that is there is refused and changes nothing. -/
theorem run_of_hasEntry (h : disk.hasEntry c.root = true) :
    (c.run disk).1 = .error (.outputRootExists c.root) ∧ (c.run disk).2.1 = disk := by
  have hentry : (disk.withDefects c.defects).hasEntry c.root = true := Disk.hasEntry_mono Disk.includes_withDefects h
  rw [run, Machine.build, if_pos hentry]
  exact ⟨rfl, rfl⟩

end BuildCall

/-- Builds never damage what is there. In any sequence of calls, wherever the system fails while they are carried out, a call keeps
every entry that was there before it; each entry it adds is its root, lies below its root, or is a directory named by the first names
of its root path; and if an earlier call has succeeded at the same path, the call is refused and changes nothing. -/
theorem builds_keep_disk (disk : Disk) (hdisk : disk.WellFormed) (before : List BuildCall) (call : BuildCall) :
    (∀ l e, (BuildCall.runAll disk before).get? l = some e → (BuildCall.runAll disk (before ++ [call])).get? l = some e) ∧
    (∀ l e, (BuildCall.runAll disk before).get? l = none → (BuildCall.runAll disk (before ++ [call])).get? l = some e →
      (BuildCall.runAll disk before).AddedFor (BuildCall.runAll disk (before ++ [call])) call.root l e) ∧
    ∀ earlier c later summary, before = earlier ++ c :: later → c.root = call.root →
      (c.run (BuildCall.runAll disk earlier)).1 = .ok summary →
      (call.run (BuildCall.runAll disk before)).1 = .error (.outputRootExists call.root) ∧
        BuildCall.runAll disk (before ++ [call]) = BuildCall.runAll disk before := by
  have hbefore := (BuildCall.grows_runAll before hdisk).wellFormed hdisk
  have hcall := (call.growsBy_run hbefore).1
  have hafter : BuildCall.runAll disk (before ++ [call]) = (call.run (BuildCall.runAll disk before)).2.1 :=
    BuildCall.runAll_append disk before [call]
  rw [hafter]
  refine ⟨fun l e hentry => hcall.grows.keeps hentry, fun l e hnone hentry => ?_, ?_⟩
  · rcases hcall.added l e hentry with hold | hnew
    · rw [hnone] at hold
      cases hold
    · exact hnew
  · rintro earlier c later summary rfl hroot hok
    have hearlier := (BuildCall.grows_runAll earlier hdisk).wellFormed hdisk
    have hentry := (c.growsBy_run hearlier).2 summary hok
    -- the root of the earlier call stays to the end
    have hlater := BuildCall.grows_runAll later ((BuildCall.grows_run c hearlier).wellFormed hearlier)
    have hstill := Disk.hasEntry_mono hlater.includes hentry
    rw [hroot] at hstill
    have hall : BuildCall.runAll disk (earlier ++ c :: later) =
        BuildCall.runAll (c.run (BuildCall.runAll disk earlier)).2.1 later :=
      BuildCall.runAll_append disk earlier (c :: later)
    rw [hall]
    exact BuildCall.run_of_hasEntry hstill

/-- A disk with a file on it. -/
def noteDisk : Disk := (Disk.workingIn []).put ["note"] (.file "keep".toUTF8)

/-- No operation fails at this disk but for what is on it. -/
theorem defects_noteDisk : noteDisk.defects = ∅ := rfl

/-- The disk with a file on it is well formed. -/
theorem wellFormed_noteDisk : noteDisk.WellFormed := by
  have hgrows : Disk.Grows (Disk.workingIn []) noteDisk :=
    Disk.Grows.add (l := []) (.file "keep".toUTF8) .refl rfl (by decide +kernel)
  exact hgrows.wellFormed Disk.wellFormed_empty

theorem isName_tree : Path.IsName "tree" := ⟨by decide, by decide, by decide, by decide, by decide, by decide⟩

theorem columns_four : 0 < (Display.mk 4).columns := by decide

/-- A call that builds in the working directory. -/
def treeCall : BuildCall := ⟨zeroing, ⟨4⟩, "tree", columns_four, ∅⟩

/-- The wording of a full disk has no line break. -/
theorem noSpace_oneLine : Text.lineBreaks.all (fun c => !"No space left on device".toList.contains c) = true := by
  decide +kernel

/-- A full disk. -/
def noSpace : SystemFault where
  text := "No space left on device"
  number := 28
  unnamed := by decide
  oneLine c hc := by simpa using List.all_eq_true.1 noSpace_oneLine c hc

/-- A call that runs out of space when it has written three bytes of its first file. -/
def fullCall : BuildCall :=
  ⟨zeroing, ⟨4⟩, "part", columns_four, .ofList [(["part", "init"], Defect.mk noSpace (some 3))]⟩

example : (fullCall.run noteDisk).1 = .error (.disk "part/init" (.system noSpace)) ∧
    (fullCall.run noteDisk).2.1.get? ["part", "init"] = some (.file "\x1b[2".toUTF8) ∧
    (fullCall.run noteDisk).2.1.get? ["note"] = some (.file "keep".toUTF8) := by
  decide +kernel

/-- Two calls at one path beside a file: the first one writes a tree, the second one is refused, and the file stays. -/
theorem builds_keep_note :
    noteDisk.WellFormed ∧ (∃ summary, (treeCall.run noteDisk).1 = .ok summary) ∧
      (treeCall.run noteDisk).2.1.get? ["note"] = some (.file "keep".toUTF8) ∧
      noteDisk.get? ["tree"] = none ∧ (treeCall.run noteDisk).2.1.get? ["tree"] = some .directory ∧
      noteDisk.AddedFor (treeCall.run noteDisk).2.1 "tree" ["tree"] .directory ∧
      (treeCall.run (treeCall.run noteDisk).2.1).1 = .error (.outputRootExists "tree") ∧
      BuildCall.runAll noteDisk [treeCall, treeCall] = (treeCall.run noteDisk).2.1 := by
  have hdisk := wellFormed_noteDisk
  have hnone : noteDisk.get? ["tree"] = none := by decide +kernel
  have hnote : noteDisk.get? ["note"] = some (.file "keep".toUTF8) := by decide +kernel
  obtain ⟨summary, loc, hbuilt, hfind⟩ := BuildCall.exists_run (c := treeCall) size_catalog_zeroing rfl hdisk
    (Disk.takesRoot_name rfl isName_tree hnone) (fits_zeroing (by decide) (by decide))
  have hloc := Disk.location_of_find_name isName_tree hfind
  rw [(treeCall.grows_run hdisk).current] at hloc
  have hroot : (treeCall.run noteDisk).2.1.get? ["tree"] = some .directory := by
    rw [← show loc = ["tree"] from hloc]
    exact (Disk.find_eq_ok.1 hfind).2.2
  obtain ⟨hkept, hadded, -⟩ := builds_keep_disk noteDisk hdisk [] treeCall
  rw [List.nil_append, BuildCall.runAll_singleton] at hkept hadded
  obtain ⟨-, -, hrefused⟩ := builds_keep_disk noteDisk hdisk [treeCall] treeCall
  rw [BuildCall.runAll_singleton] at hrefused
  exact ⟨hdisk, ⟨summary, hbuilt⟩, hkept ["note"] _ hnote, hnone, hroot, hadded ["tree"] _ hnone hroot,
    hrefused [] treeCall [] summary rfl rfl hbuilt⟩

end DispatchTree
