import DispatchTree.Proofs.Files.Listing

/-!
# A build writes the graph

On a file system that takes its root, the build of a machine succeeds if its actions have numbers of their own, and what stands
below the root is the tree of the machine's graph and nothing else. Following links there by their names is following edges in the
graph by their keys.
-/

namespace DispatchTree

/-! ## Following links -/

namespace Disk

/-- Where a link leads that stands under a name in a directory. -/
def hop (d : Disk) (here : Location) (name : String) : Option Location :=
  match d.get? (here ++ [name]) with
  | some (.link target) =>
    match d.walk true maxLinks (startOf here target) (namesOf target) with
    | .ok ⟨.existing there, _⟩ => some there
    | _ => none
  | _ => none

/-- Where links lead that are followed one after the other, each by its name in the directory reached so far. -/
def hops (d : Disk) : Location → List String → Option Location
  | here, [] => some here
  | here, name :: names => (d.hop here name).bind fun there => d.hops there names

variable {d : Disk} {here : Location} {name : String} {id : Nat}

/-- Only links are followed. -/
theorem hop_eq_none (h : ∀ target, d.get? (here ++ [name]) ≠ some (.link target)) : d.hop here name = none := by
  rw [hop]
  split
  · rename_i target hentry
    exact absurd hentry (h target)
  · rfl

/-- A link to a node at the root. -/
theorem hop_tag (htag : Path.IsName (tag id)) (hlink : d.get? (here ++ [name]) = some (.link (tag id)))
    (hnode : d.get? (here ++ [tag id]) = some .directory) : d.hop here name = some (here ++ [tag id]) := by
  have hnames : Path.names (tag id) = [tag id] := by
    rw [Path.names, Path.parts_of_noSlash htag.noSlash]
    simp [htag.ne_empty]
  have hslash : (tag id).endsWith "/" = false := by
    rw [Bool.eq_false_iff]
    intro h
    exact htag.noSlash (List.IsSuffix.subset (Path.endsWith_iff.1 h) (by decide))
  simp only [hop, hlink, startOf, Path.isAbsolute_of_noSlash htag.noSlash, namesOf_eq, hnames, hslash, Bool.false_eq_true, if_false,
    List.append_nil, walk_name (not_or.2 ⟨htag.ne_empty, htag.ne_point⟩) htag.ne_points htag.short, hnode, walk_nil]

/-- A link to a node in the directory of another node. -/
theorem hop_sibling (htag : Path.IsName (tag id)) (other : String)
    (hlink : d.get? (here ++ [other] ++ [name]) = some (.link ("../" ++ tag id)))
    (hnode : d.get? (here ++ [tag id]) = some .directory) : d.hop (here ++ [other]) name = some (here ++ [tag id]) := by
  have hjoin : "../" ++ tag id = Path.join ".." (tag id) := by
    rw [← Graph.linkTarget_nested]
    rfl
  have hup : (".." : String) ≠ "" := by decide
  have hnames : Path.names ".." = [".."] := by decide +kernel
  have habsolute : Path.isAbsolute ".." = false := by decide +kernel
  simp only [hop, hlink, hjoin, startOf, Path.isAbsolute_join htag hup, habsolute, namesOf_eq, Path.names_join htag hup, hnames,
    Path.endsWith_join htag hup, Bool.false_eq_true, if_false, List.append_nil, List.cons_append, List.nil_append]
  rw [walk_cons, if_neg (by decide), if_pos rfl, List.dropLast_concat,
    walk_name (not_or.2 ⟨htag.ne_empty, htag.ne_point⟩) htag.ne_points htag.short, hnode, walk_nil]

end Disk

namespace Graph

/-- The position reached when keys are followed one after the other. -/
def followAll (g : Graph) : Option Nat → List String → Option (Option Nat)
  | position, [] => some position
  | position, key :: keys => (g.follow position key).bind fun id => g.followAll (some id) keys

/-- Where a position stands in a tree: at the root, or in the directory of its node. -/
def placeOf (loc : Location) : Option Nat → Location
  | none => loc
  | some id => loc ++ [tag id]

/-- A position is the root or a node. -/
def IsPosition (g : Graph) : Option Nat → Prop
  | none => True
  | some id => id < g.nodes.length

variable {g : Graph} {d : Display} {disk : Disk} {loc : Location}

/-- What a tree holds is below its root. -/
theorem Holds.names_ne_nil {names : Location} {e : Entry} (h : g.Holds d names e) : names ≠ [] := by
  cases h <;> simp

/-- A link at the root is an edge of the entries. -/
theorem Holds.follow_root {name target : String} (h : g.Holds d [name] (.link target)) : ∃ id, g.follow none name = some id := by
  cases h with
  | rootEdge hedge => exact ⟨_, hedge⟩

/-- A link in the directory of a node is an edge of the node. -/
theorem Holds.follow_node (hg : g.Closed) {id : Nat} {name target : String} (h : g.Holds d [tag id, name] (.link target)) :
    ∃ next, g.follow (some id) name = some next := by
  generalize hnames : [tag id, name] = names at h
  cases h with
  | @edge n key next hn hedge =>
    obtain ⟨htag, hrest⟩ := List.cons.inj hnames
    obtain rfl := (List.cons.inj hrest).1
    rw [tag_injective htag, hg.follow_node hn]
    exact ⟨next, hedge⟩
  | rootEdge hedge => simp at hnames

/-- One hop: a link that has a name leads to the directory of the node that the name leads to as a key. -/
theorem hop_placeOf (hg : g.Closed) (htags : ∀ n ∈ g.nodes, Path.IsName (tag n.id))
    (hentries : ∀ names e, names ≠ [] → (disk.get? (loc ++ names) = some e ↔ g.Holds d names e)) {position : Option Nat}
    (hp : g.IsPosition position) (name : String) :
    disk.hop (placeOf loc position) name = (g.follow position name).map fun id => loc ++ [tag id] := by
  have htarget : ∀ {target}, g.follow position name = some target →
      Path.IsName (tag target) ∧ disk.get? (loc ++ [tag target]) = some .directory := by
    intro target h
    obtain ⟨n, hn, rfl⟩ := hg.exists_node h
    exact ⟨htags n hn, (hentries _ _ (by simp)).2 (.node hn)⟩
  cases position with
  | none =>
    cases hfollow : g.follow none name with
    | none =>
      refine Disk.hop_eq_none fun target hentry => ?_
      obtain ⟨id, hid⟩ := ((hentries [name] _ (by simp)).1 hentry).follow_root
      rw [hfollow] at hid
      cases hid
    | some target =>
      obtain ⟨htag, hnode⟩ := htarget hfollow
      exact Disk.hop_tag htag ((hentries [name] _ (by simp)).2 (.rootEdge hfollow)) hnode
  | some id =>
    have hnames : placeOf loc (some id) ++ [name] = loc ++ [tag id, name] := List.append_assoc _ _ _
    cases hfollow : g.follow (some id) name with
    | none =>
      refine Disk.hop_eq_none fun target hentry => ?_
      rw [hnames] at hentry
      obtain ⟨next, hnext⟩ := ((hentries _ _ (by simp)).1 hentry).follow_node hg
      rw [hfollow] at hnext
      cases hnext
    | some target =>
      obtain ⟨htag, hnode⟩ := htarget hfollow
      have hn : g.nodes[id] ∈ g.nodes := List.getElem_mem hp
      have hid : g.nodes[id].id = id := hg.numbered id _ (List.getElem?_eq_getElem hp)
      have hedge := hg.follow_node hn name
      rw [hid, hfollow] at hedge
      have hholds := Holds.edge (d := d) hn hedge.symm
      rw [hid] at hholds
      refine Disk.hop_sibling htag (tag id) ?_ hnode
      rw [List.append_assoc]
      exact (hentries _ _ (by simp)).2 hholds

/-- Links are followed from the place of a position as edges are followed from the position. -/
theorem hops_placeOf (hg : g.Closed) (htags : ∀ n ∈ g.nodes, Path.IsName (tag n.id))
    (hentries : ∀ names e, names ≠ [] → (disk.get? (loc ++ names) = some e ↔ g.Holds d names e)) {position : Option Nat}
    (hp : g.IsPosition position) (names : List String) :
    disk.hops (placeOf loc position) names = (g.followAll position names).map (placeOf loc) := by
  induction names generalizing position with
  | nil => rfl
  | cons name names ih =>
    rw [Disk.hops, followAll, hop_placeOf hg htags hentries hp]
    cases hfollow : g.follow position name with
    | none => rfl
    | some id =>
      have hnext : g.IsPosition (some id) := hg.target position name id hfollow
      exact ih hnext

/-! ## The build -/

/-- On a display that has columns every program has bytes. -/
theorem exists_nodesBytes (hd : 0 < d.columns) (nodes : List Node) : ∃ bs, nodesBytes d nodes = .ok bs := by
  induction nodes with
  | nil => exact ⟨[], rfl⟩
  | cons n nodes ih =>
    obtain ⟨bs, hbs⟩ := ih
    simp only [nodesBytes, Node.bytes, render_eq hd, hbs, bind, Except.bind, pure, Except.pure]
    exact ⟨_, rfl⟩

/-- On a display that has columns every graph has a fingerprint. -/
theorem exists_fingerprint (hd : 0 < d.columns) (g : Graph) : ∃ text, g.fingerprint d = .ok text := by
  obtain ⟨bs, hbs⟩ := exists_nodesBytes hd g.nodes
  simp only [fingerprint, bytes, hbs, bind, Except.bind, pure, Except.pure, Except.map]
  exact ⟨_, rfl⟩

/-- The fault of the root's creation ends a build. -/
theorem materialize_of_makeRoot {root : String} {f : BuildFault} (hentry : disk.hasEntry root = false)
    (h : (makeRoot disk root).1 = .error f) : (g.materialize d root disk).1 = .error f := by
  obtain ⟨result, disk', hmake⟩ : ∃ result disk', makeRoot disk root = (result, disk') := ⟨_, _, rfl⟩
  rw [hmake] at h
  obtain rfl : result = .error f := h
  simp only [materialize, hentry, hmake, Bool.false_eq_true, if_false]

/-- A closed graph is written as its tree. -/
theorem materialize_eq {root : String} (hd : 0 < d.columns) (hg : g.Closed) (hdisk : disk.WellFormed)
    (hroot : disk.TakesRoot root) (hfits : g.Fits d root) :
    disk.hasEntry root = false ∧ ∃ summary disk' loc, (g.materialize d root disk).1 = .ok summary ∧
      (g.materialize d root disk).2.1 = disk' ∧
      summary.nodes = g.nodes.length ∧ summary.edges = g.edgeCount ∧ summary.rootEdges = g.rootEdges.size ∧
      summary.duplicateEdges = 0 ∧ g.fingerprint d = .ok summary.fingerprint ∧
      disk'.find false root = .ok (loc, .directory) ∧
      ∀ names e, names ≠ [] → (disk'.get? (loc ++ names) = some e ↔ g.Holds d names e) := by
  obtain ⟨start, p, loc, hentry, hmake, hrun, hduplicates, -, hfind, hentries⟩ := (writes_operations hd).exists_run hdisk hroot
    (ordered_items g d) (nodup_items hg d) (fits_items hd hg hfits)
  obtain ⟨fingerprint, hfingerprint⟩ := exists_fingerprint hd g
  have heq : ∃ events, g.materialize d root disk =
      (.ok ⟨root, g.nodes.length, g.edgeCount, g.rootEdges.size, p.duplicates, fingerprint⟩, p.disk, events) := by
    simp only [materialize, hentry, hmake, hrun, hfingerprint, Bool.false_eq_true, if_false]
    exact ⟨_, rfl⟩
  obtain ⟨events, heq⟩ := heq
  rw [heq]
  refine ⟨hentry, _, _, loc, rfl, rfl, rfl, rfl, rfl, hduplicates, hfingerprint, hfind, fun names e hne => ?_⟩
  rw [hentries names e hne, mem_items hd hg]

/-- A graph was written at a location: below it stand the entries of the graph's tree and nothing else, the summary counts them, and
links are followed there as edges are followed in the graph. -/
structure WrittenAt (g : Graph) (d : Display) (disk : Disk) (loc : Location) (summary : BuildSummary) : Prop where
  entries : ∀ names e, (names, e) ∈ disk.below loc ↔ g.Holds d names e
  nodes : summary.nodes = (disk.below loc).countP isDirectoryItem
  edges : summary.edges = (disk.below loc).countP (isLinkAt 2)
  rootEdges : summary.rootEdges = (disk.below loc).countP (isLinkAt 1)
  duplicateEdges : summary.duplicateEdges = 0
  fingerprint : g.fingerprint d = .ok summary.fingerprint
  hops : ∀ names, disk.hops loc names = (g.followAll none names).map (placeOf loc)

/-- A closed graph is written at its root. -/
theorem writtenAt_materialize {root : String} (hd : 0 < d.columns) (hg : g.Closed) (hdisk : disk.WellFormed)
    (hroot : disk.TakesRoot root) (hfits : g.Fits d root) :
    ∃ summary loc, (g.materialize d root disk).1 = .ok summary ∧
      (g.materialize d root disk).2.1.find false root = .ok (loc, .directory) ∧
      g.WrittenAt d (g.materialize d root disk).2.1 loc summary := by
  obtain ⟨-, summary, _, loc, hresult, rfl, hnodes, hedges, hrootEdges, hduplicates, hfingerprint, hfind, hentries⟩ :=
    materialize_eq hd hg hdisk hroot hfits
  have hbelow : ∀ names e, (names, e) ∈ (g.materialize d root disk).2.1.below loc ↔ g.Holds d names e := by
    intro names e
    rw [Disk.mem_below]
    constructor
    · rintro ⟨hne, h⟩
      exact (hentries names e hne).1 h
    · intro h
      exact ⟨h.names_ne_nil, (hentries names e h.names_ne_nil).2 h⟩
  have htags : ∀ n ∈ g.nodes, Path.IsName (tag n.id) := fun n hn =>
    isName_tag ((hfits _ _ (.node hn)).1 (tag n.id) List.mem_cons_self)
  obtain ⟨hcount, hcountEdges, hcountRoot⟩ := countP_below hd hg hbelow
  refine ⟨summary, loc, hresult, hfind, ⟨hbelow, ?_, ?_, ?_, hduplicates, hfingerprint, fun names => ?_⟩⟩
  · rw [hnodes, hcount]
  · rw [hedges, hcountEdges]
  · rw [hrootEdges, hcountRoot]
  · have hposition : g.IsPosition none := trivial
    exact hops_placeOf hg htags hentries hposition names

end Graph

/-- The tree on disk is the graph. On a file system that takes the root, and that takes the names and paths of the tree, every
machine with at most `2 ^ 32` actions is built: compiling succeeds, the root is a directory afterwards, and the graph is what is
written there. -/
theorem build_writes_graph (m : Machine) (hm : m.catalog.size ≤ Catalog.capacity) (d : Display) (hd : 0 < d.columns)
    (disk : Disk) (hdisk : disk.WellFormed) (root : String) (hroot : disk.TakesRoot root) (hfits : m.graph.Fits d root) :
    ∃ plan summary loc, m.plan = .ok plan ∧ (m.build d root disk).1 = .ok summary ∧
      (m.build d root disk).2.1.find false root = .ok (loc, .directory) ∧
      plan.graph.WrittenAt d (m.build d root disk).2.1 loc summary := by
  have hentry := (hroot.makeRoot hdisk).1
  obtain ⟨summary, loc, h⟩ := Graph.writtenAt_materialize hd (m.closed_graph hm) hdisk hroot hfits
  have hbuild : (m.build d root disk).1 = (m.graph.materialize d root disk).1 ∧
      (m.build d root disk).2.1 = (m.graph.materialize d root disk).2.1 := by
    simp only [Machine.build, hentry, m.plan_eq, Bool.false_eq_true, if_false, and_self]
  rw [hbuild.1, hbuild.2]
  exact ⟨_, summary, loc, m.plan_eq, h⟩

/-- A machine that replaces pairs of ones by pairs of zeros on its way to the right. -/
def zeroing : Machine := (Machine.new "A").rule "A" ⟨.one, .one⟩ ⟨"A", ⟨.zero, .right⟩, ⟨.zero, .right⟩⟩

/-- The machine has few enough actions for their numbers. -/
theorem size_catalog_zeroing : zeroing.catalog.size ≤ Catalog.capacity := by decide +kernel

/-- The disk on which nothing stands is well formed. -/
theorem Disk.wellFormed_empty : (Disk.workingIn []).WellFormed := by
  refine ⟨rfl, fun l name e h => ?_⟩
  simp [Disk.workingIn, Disk.get?] at h

/-- The tree of `zeroing` fits below every root that leaves room for two names. -/
theorem fits_zeroing {d : Display} {root : String} (hr : root ≠ "")
    (hroot : root.utf8ByteSize + 2 * (Disk.maxName + 1) ≤ Disk.maxPath) : zeroing.graph.Fits d root := by
  have hnodes : zeroing.graph.nodes.length = 2 := by
    have hcatalog : zeroing.catalog.toList.length = 2 := by decide +kernel
    simpa [Machine.graph] using hcatalog
  exact Graph.fits_of_length (zeroing.closed_graph size_catalog_zeroing) hr (by rw [hnodes]; decide) hroot

/-- A machine is built in a directory that has to be created first. -/
theorem build_writes_zeroing :
    zeroing.catalog.size ≤ Catalog.capacity ∧ (Disk.workingIn []).WellFormed ∧ (Disk.workingIn []).TakesRoot "out/tree" ∧
      zeroing.graph.Fits ⟨4⟩ "out/tree" ∧ ∃ plan summary loc, zeroing.plan = .ok plan ∧
        (zeroing.build ⟨4⟩ "out/tree" (Disk.workingIn [])).1 = .ok summary ∧
        (zeroing.build ⟨4⟩ "out/tree" (Disk.workingIn [])).2.1.find false "out/tree" = .ok (loc, .directory) ∧
        plan.graph.WrittenAt ⟨4⟩ (zeroing.build ⟨4⟩ "out/tree" (Disk.workingIn [])).2.1 loc summary := by
  have hfits : zeroing.graph.Fits ⟨4⟩ "out/tree" := fits_zeroing (by decide) (by decide)
  have hwalk : (Graph.makeParents (Disk.workingIn []) "out/tree").2.walk true Disk.maxLinks
      (Disk.startOf (Graph.makeParents (Disk.workingIn []) "out/tree").2.current "out/tree")
      ((Disk.splitNames "out/tree").1 ++ [""]) = .ok ⟨.existing ["out"], 40⟩ := by
    decide +kernel
  have hroot : (Disk.workingIn []).TakesRoot "out/tree" := by
    refine ⟨rfl, ⟨"tree", by decide +kernel, by decide, by decide, by decide⟩,
      Disk.checkPath_eq_ok.2 ⟨by decide, by decide, by decide⟩, by decide +kernel, fun here k h name hname => ?_⟩
    have hhere : here = ["out"] := by
      rw [hwalk] at h
      cases h
      rfl
    have hlast : name = "tree" := by
      have hsplit : (Disk.splitNames "out/tree").2.1 = some "tree" := by decide +kernel
      rw [hsplit] at hname
      exact (Option.some.inj hname).symm
    rw [hhere, hlast]
    decide +kernel
  exact ⟨size_catalog_zeroing, Disk.wellFormed_empty, hroot, hfits,
    build_writes_graph zeroing size_catalog_zeroing ⟨4⟩ (by decide) _ Disk.wellFormed_empty "out/tree" hroot hfits⟩

/-- A disk with one directory. -/
def oneDirectory : Disk := (Disk.workingIn []).put ["b"] .directory

/-- A path that does not exist before its parents are created can exist afterwards. Then nothing is built: the path of a root leads
through a missing directory and back, to a directory that is there. -/
theorem build_refuses_detour :
    oneDirectory.WellFormed ∧ oneDirectory.hasEntry "a/../b" = false ∧ (Disk.splitNames "a/../b").2.1 = some "b" ∧
      (Graph.makeParents oneDirectory "a/../b").1 = .ok () ∧ zeroing.graph.Fits ⟨4⟩ "a/../b" ∧
      (zeroing.build ⟨4⟩ "a/../b" oneDirectory).1 = .error (.outputRootExists "a/../b") := by
  have hgrows : Disk.Grows (Disk.workingIn []) oneDirectory :=
    Disk.Grows.add (l := []) .directory .refl rfl (by decide +kernel)
  have hentry : oneDirectory.hasEntry "a/../b" = false := by decide +kernel
  have hmake : (Graph.makeRoot oneDirectory "a/../b").1 = .error (.outputRootExists "a/../b") := by decide +kernel
  refine ⟨hgrows.wellFormed Disk.wellFormed_empty, hentry, by decide +kernel, by decide +kernel,
    fits_zeroing (by decide) (by decide), ?_⟩
  simp only [Machine.build, hentry, zeroing.plan_eq, Bool.false_eq_true, if_false]
  exact Graph.materialize_of_makeRoot hentry hmake

end DispatchTree
