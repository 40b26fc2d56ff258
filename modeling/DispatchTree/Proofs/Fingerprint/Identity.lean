import DispatchTree.Proofs.Files.Refusal
import DispatchTree.Proofs.Fingerprint.Image

/-!
# A fingerprint identifies a tree

What stands at a fresh root after a graph was written there is determined by the graph's image, whatever the graph is: if two nodes
have the same number, the second directory cannot be created and the tree ends there, in the same place for every graph with the
same image. Equal bytes therefore give equal trees. The graph of a machine with numbers enough is closed, so its image can be read off
its tree, and equal trees give equal bytes.
-/

namespace DispatchTree

/-! ## Trees on disks -/

namespace Disk

/-- What stands at and below a root: a directory with the given entries. -/
def TreeAt (d : Disk) (root : String) (items : List (Location × Entry)) : Prop :=
  ∃ loc, d.find false root = .ok (loc, .directory) ∧
    ∀ names e, names ≠ [] → (d.get? (loc ++ names) = some e ↔ (names, e) ∈ items)

/-- At two roots stand directories with the same entries under the same names. -/
def SameTree (d₁ : Disk) (root₁ : String) (d₂ : Disk) (root₂ : String) : Prop :=
  ∃ loc₁ loc₂, d₁.find false root₁ = .ok (loc₁, .directory) ∧ d₂.find false root₂ = .ok (loc₂, .directory) ∧
    ∀ names, d₁.get? (loc₁ ++ names) = d₂.get? (loc₂ ++ names)

variable {d₁ d₂ : Disk} {root₁ root₂ : String} {items items' : List (Location × Entry)}

/-- Two trees with the same entries are the same. -/
theorem TreeAt.sameTree (h₁ : d₁.TreeAt root₁ items) (h₂ : d₂.TreeAt root₂ items) : SameTree d₁ root₁ d₂ root₂ := by
  obtain ⟨loc₁, hfind₁, hentries₁⟩ := h₁
  obtain ⟨loc₂, hfind₂, hentries₂⟩ := h₂
  refine ⟨loc₁, loc₂, hfind₁, hfind₂, fun names => ?_⟩
  by_cases hnames : names = []
  · rw [hnames, List.append_nil, List.append_nil, (find_eq_ok.1 hfind₁).2.2, (find_eq_ok.1 hfind₂).2.2]
  · refine Option.ext fun e => ?_
    rw [hentries₁ names e hnames, hentries₂ names e hnames]

/-- Trees that are the same have the same entries. -/
theorem SameTree.mem_iff (h : SameTree d₁ root₁ d₂ root₂) (h₁ : d₁.TreeAt root₁ items) (h₂ : d₂.TreeAt root₂ items')
    {names : Location} (hnames : names ≠ []) (e : Entry) : (names, e) ∈ items ↔ (names, e) ∈ items' := by
  obtain ⟨loc₁, loc₂, hfind₁, hfind₂, hsame⟩ := h
  obtain ⟨loc₁', hfind₁', hentries₁⟩ := h₁
  obtain ⟨loc₂', hfind₂', hentries₂⟩ := h₂
  obtain rfl : loc₁ = loc₁' := by
    rw [hfind₁] at hfind₁'
    cases hfind₁'
    rfl
  obtain rfl : loc₂ = loc₂' := by
    rw [hfind₂] at hfind₂'
    cases hfind₂'
    rfl
  rw [← hentries₁ names e hnames, ← hentries₂ names e hnames, hsame]

end Disk

/-! ## Writing at a fresh root -/

/-- A graph that is to be written on a display at a fresh root of a disk, where the file system takes every name and path. -/
structure FreshTree where
  graph : Graph
  display : Display
  root : String
  disk : Disk
  columns : 0 < display.columns
  wellFormed : disk.WellFormed
  fresh : disk.TakesRoot root
  fits : ∀ item ∈ graph.items display, Operation.Fits root item

namespace FreshTree

/-- What is written. -/
def image (t : FreshTree) : Image := t.graph.image t.display

/-- The bytes of the fingerprint. -/
def bytes (t : FreshTree) : Except Underflow (List UInt8) := t.graph.bytes t.display

/-- The disk once the graph was written, or as much of it as could be. -/
def after (t : FreshTree) : Disk := (t.graph.materialize t.display t.root t.disk).2.1

variable (t : FreshTree)

/-- The disk is as the operations left it, whether they succeeded or not. -/
theorem after_eq {start : Disk} {p : Progress} {result : Except BuildFault Unit} (hentry : t.disk.hasEntry t.root = false)
    (hmake : Graph.makeRoot t.disk t.root = (.ok (), start))
    (hrun : Operation.runAll (t.graph.operations t.display t.root) ⟨start, [], 0, 0⟩ = (result, p)) : t.after = p.disk := by
  obtain ⟨text, htext⟩ := Graph.exists_fingerprint t.columns t.graph
  cases result with
  | error f => simp only [after, Graph.materialize, hentry, hmake, hrun, Bool.false_eq_true, if_false]
  | ok _ => simp only [after, Graph.materialize, hentry, hmake, hrun, htext, Bool.false_eq_true, if_false]

/-- Different numbers are different tags. -/
theorem pairwise_tag {nodes : List Node} (h : ((nodes.map (Graph.nodeImage t.display)).map NodeImage.id).Nodup) :
    nodes.Pairwise fun a b => tag a.id ≠ tag b.id := by
  rw [List.map_map, List.Nodup, List.pairwise_map] at h
  exact h.imp fun hne he => hne (tag_injective he)

/-- If the nodes have different numbers, everything is written. -/
theorem treeAt_of_nodup (h : (t.image.nodes.map NodeImage.id).Nodup) : t.after.TreeAt t.root t.image.items := by
  obtain ⟨start, p, loc, hentry, hmake, hrun, -, -, hfind, hentries⟩ := (Graph.writes_operations t.columns).exists_run t.wellFormed
    t.fresh (Graph.ordered_items _ _) (Graph.nodup_items_of_pairwise (t.pairwise_tag h) _) t.fits
  rw [t.after_eq hentry hmake hrun, image, ← Graph.items_eq]
  exact ⟨loc, hfind, hentries⟩

/-- A node whose number was there before cannot be written. -/
theorem run_directory {p : Progress} {loc : Location} {n : Node} (hn : n ∈ t.graph.nodes) (hleads : p.disk.LeadsTo t.root loc)
    (hentry : p.disk.get? (loc ++ [tag n.id]) = some .directory) :
    (Operation.directory (Path.join t.root (tag n.id))).run p =
      .error (.disk (Path.join t.root (tag n.id)) .alreadyExists) := by
  have hitem : ([tag n.id], .directory) ∈ t.graph.items t.display := by
    rw [Graph.items]
    refine List.mem_append_left _ (List.mem_append_left _ (List.mem_append_right _ (List.mem_flatMap.2 ⟨n, hn, ?_⟩)))
    exact List.mem_cons_self
  have hfits := t.fits _ hitem
  have hname : Path.IsName (tag n.id) := hfits.names _ List.mem_cons_self
  obtain ⟨hnul, hempty, -⟩ := Disk.checkPath_eq_ok.1 t.fresh.accepted
  have hpath : Disk.checkPath (Path.join t.root (tag n.id)) = .ok () :=
    Disk.checkPath_eq_ok.2 ⟨Path.noNul_join hname hempty hnul, Path.join_ne_empty hname hempty, hfits.path⟩
  rw [Operation.run, Disk.makeDirectory_of_leadsTo hpath (hleads.join hempty hname hentry)]
  rfl

/-- If a number is repeated, what comes before the second node of that number is written, and nothing else. -/
theorem treeAt_of_repeated {before later : List NodeImage} {n : NodeImage} (hnodes : t.image.nodes = before ++ n :: later)
    (hbefore : (before.map NodeImage.id).Nodup) (hn : n.id ∈ before.map NodeImage.id) :
    t.after.TreeAt t.root (t.image.programs before) := by
  obtain ⟨nodes, rest, hsplit, rfl, hrest⟩ := List.map_eq_append_iff.1 hnodes
  obtain ⟨node, rest, rfl, rfl, -⟩ := List.map_eq_cons_iff.1 hrest
  rw [image, Graph.image_programs]
  have hprograms : ∀ item ∈ t.graph.programItems t.display nodes, item ∈ t.graph.items t.display := by
    intro item hitem
    rw [Graph.items_eq_append, hsplit, Graph.programItems, List.flatMap_append]
    refine List.mem_append_left _ (List.mem_append_left _ ?_)
    rw [Graph.programItems, List.mem_append] at hitem
    exact List.mem_append.2 (hitem.imp_right (List.mem_append_left _))
  -- the entries before the repeated node are the first ones of the graph that ends there
  have hordered := Graph.ordered_items { t.graph with nodes } t.display
  have hdistinct := Graph.nodup_items_of_pairwise (g := { t.graph with nodes }) (t.pairwise_tag hbefore) t.display
  rw [Graph.items_eq_append, List.append_assoc] at hordered hdistinct
  rw [List.map_append, List.nodup_append] at hdistinct
  obtain ⟨start, p, loc, hentry, hmake, hrun, -, hleads, hfind, hentries⟩ :=
    (Graph.writes_programs t.columns t.graph nodes).exists_run t.wellFormed t.fresh hordered.left hdistinct.1
      fun item hitem => t.fits item (hprograms item hitem)
  have hdirectory : p.disk.get? (loc ++ [tag node.id]) = some .directory := by
    rw [List.map_map] at hn
    obtain ⟨first, hfirst, hid⟩ := List.mem_map.1 hn
    have hid' : first.id = node.id := hid
    rw [hentries _ _ (by simp), ← hid']
    exact List.mem_append_right _ (List.mem_flatMap.2 ⟨first, hfirst, List.mem_cons_self⟩)
  have hstop := t.run_directory (n := node) (by rw [hsplit]; simp) hleads hdirectory
  obtain ⟨ops, hops⟩ : ∃ ops, t.graph.operations t.display t.root =
      t.graph.programOperations t.display t.root nodes ++ .directory (Path.join t.root (tag node.id)) :: ops := by
    rw [Graph.operations_eq_append, hsplit, Graph.programOperations, List.flatMap_append, List.flatMap_cons, Graph.nodeOperations]
    simp only [Graph.programOperations, List.append_assoc]
    exact ⟨_, rfl⟩
  have hall : Operation.runAll (t.graph.operations t.display t.root) ⟨start, [], 0, 0⟩ =
      (.error (.disk (Path.join t.root (tag node.id)) .alreadyExists), p) := by
    rw [hops, Operation.runAll_append hrun, Operation.runAll, hstop]
    rfl
  rw [t.after_eq hentry hmake hall]
  exact ⟨loc, hfind, hentries⟩

/-- What is written at a fresh root is determined by the image. -/
theorem exists_treeAt (i : Image) : ∃ items, ∀ t : FreshTree, t.image = i → t.after.TreeAt t.root items := by
  rcases nodup_or_exists_repeated NodeImage.id i.nodes with h | ⟨before, n, later, hnodes, hbefore, hn⟩
  · refine ⟨i.items, ?_⟩
    rintro t rfl
    exact t.treeAt_of_nodup h
  · refine ⟨i.programs before, ?_⟩
    rintro t rfl
    exact t.treeAt_of_repeated hnodes hbefore hn

/-- Graphs with the same image give the same tree. -/
theorem sameTree_of_image {t₁ t₂ : FreshTree} (h : t₁.image = t₂.image) : Disk.SameTree t₁.after t₁.root t₂.after t₂.root := by
  obtain ⟨items, hitems⟩ := exists_treeAt t₂.image
  exact (hitems t₁ h).sameTree (hitems t₂ rfl)

end FreshTree

/-! ## Reading the image off the tree -/

namespace Graph

variable {g g₁ g₂ : Graph} {d d₁ d₂ : Display}

/-- The first program depends on the display and the prompt. -/
theorem holds_init_iff {bytes : ByteArray} :
    g.Holds d [initFile] (.file bytes) ↔ bytes = (encodeAll (d.initProgram g.prompt)).toUTF8 := by
  constructor
  · intro h
    generalize hnames : [initFile] = names at h
    cases h with
    | init => rfl
    | postInit => exact absurd hnames (by decide)
    | program => simp at hnames
  · rintro rfl
    exact .init

/-- The second program depends on the display only. -/
theorem holds_postInit_iff {bytes : ByteArray} :
    g.Holds d [postInitFile] (.file bytes) ↔ bytes = (encodeAll d.postInitProgram).toUTF8 := by
  constructor
  · intro h
    generalize hnames : [postInitFile] = names at h
    cases h with
    | init => exact absurd hnames (by decide)
    | postInit => rfl
    | program => simp at hnames
  · rintro rfl
    exact .postInit

/-- There is a directory for each number of a node. -/
theorem holds_directory_iff (hg : g.Closed) {id : Nat} : g.Holds d [tag id] .directory ↔ id < g.nodes.length := by
  constructor
  · intro h
    generalize hnames : [tag id] = names at h
    cases h with
    | @node n hn =>
      rw [tag_injective (List.cons.inj hnames).1]
      exact (List.getElem?_eq_some_iff.1 (hg.node?_id hn)).1
  · intro h
    have hholds := Holds.node (d := d) (List.getElem_mem h)
    rwa [hg.numbered id _ (List.getElem?_eq_getElem h)] at hholds

/-- The directory of a node has the text of its program. -/
theorem holds_program_iff (hd : 0 < d.columns) (hg : g.Closed) {n : Node} (hn : n ∈ g.nodes) {bytes : ByteArray} :
    g.Holds d [tag n.id, executeFile] (.file bytes) ↔ bytes = (textOf d n.program).toUTF8 := by
  constructor
  · intro h
    generalize hnames : [tag n.id, executeFile] = names at h
    cases h with
    | init => simp at hnames
    | postInit => simp at hnames
    | @program n' text hn' htext =>
      have hid := tag_injective (List.cons.inj hnames).1
      obtain rfl : n = n' := by
        have hnode := hg.node?_id hn
        rw [hid, hg.node?_id hn'] at hnode
        exact (Option.some.inj hnode).symm
      rw [Except.ok.inj (htext.symm.trans (render_eq hd n.program))]
  · rintro rfl
    exact .program hn (render_eq hd n.program)

/-- The directory of a node has a link for each of its edges. -/
theorem holds_link_iff (hg : g.Closed) {n : Node} (hn : n ∈ g.nodes) {key : String} {target : Nat} :
    g.Holds d [tag n.id, key] (.link ("../" ++ tag target)) ↔ n.edges[key]? = some target := by
  constructor
  · intro h
    generalize hnames : [tag n.id, key] = names at h
    generalize htarget : "../" ++ tag target = text at h
    cases h with
    | @edge n' key' next hn' hedge =>
      obtain ⟨htag, hrest⟩ := List.cons.inj hnames
      obtain rfl := (List.cons.inj hrest).1
      rw [← hg.follow_node hn, tag_injective htag, hg.follow_node hn', hedge,
        tag_injective ((String.append_right_inj _).1 htarget)]
    | rootEdge => simp at hnames
  · intro h
    exact .edge hn h

/-- The root has a link for each entry. -/
theorem holds_rootLink_iff {key : String} {target : Nat} :
    g.Holds d [key] (.link (tag target)) ↔ g.rootEdges[key]? = some target := by
  constructor
  · intro h
    generalize hnames : [key] = names at h
    generalize htarget : tag target = text at h
    cases h with
    | edge => simp at hnames
    | @rootEdge key' next hedge =>
      obtain rfl := (List.cons.inj hnames).1
      rw [hedge, tag_injective htarget]
  · intro h
    exact .rootEdge h

/-- Nodes of the same number have the same image in closed graphs whose trees have the same entries. -/
theorem nodeImage_eq_of_holds (hd₁ : 0 < d₁.columns) (hd₂ : 0 < d₂.columns) (hg₁ : g₁.Closed) (hg₂ : g₂.Closed)
    (h : ∀ names e, g₁.Holds d₁ names e ↔ g₂.Holds d₂ names e) {n₁ n₂ : Node} (hn₁ : n₁ ∈ g₁.nodes) (hn₂ : n₂ ∈ g₂.nodes)
    (hid : n₁.id = n₂.id) : nodeImage d₁ n₁ = nodeImage d₂ n₂ := by
  rw [nodeImage, nodeImage, NodeImage.mk.injEq]
  refine ⟨hid, ?_, ?_⟩
  · have hprogram := (h _ _).1 ((holds_program_iff hd₁ hg₁ hn₁).2 rfl)
    rw [hid] at hprogram
    exact String.toByteArray_inj.1 ((holds_program_iff hd₂ hg₂ hn₂).1 hprogram)
  · refine Std.ExtTreeMap.ext_getElem? fun key => Option.ext fun target => ?_
    rw [← holds_link_iff (d := d₁) hg₁ hn₁, h, hid, holds_link_iff hg₂ hn₂]

/-- Closed graphs whose trees have the same entries have the same image. -/
theorem image_eq_of_holds (hd₁ : 0 < d₁.columns) (hd₂ : 0 < d₂.columns) (hg₁ : g₁.Closed) (hg₂ : g₂.Closed)
    (h : ∀ names e, g₁.Holds d₁ names e ↔ g₂.Holds d₂ names e) : g₁.image d₁ = g₂.image d₂ := by
  have hlen : g₁.nodes.length = g₂.nodes.length := by
    have hlt : ∀ id, id < g₁.nodes.length ↔ id < g₂.nodes.length := by
      intro id
      rw [← holds_directory_iff hg₁, h, holds_directory_iff hg₂]
    have hlt₁ := hlt g₁.nodes.length
    have hlt₂ := hlt g₂.nodes.length
    omega
  rw [image, image, Image.mk.injEq]
  refine ⟨?_, ?_, ?_, ?_⟩
  · exact String.toByteArray_inj.1 (holds_init_iff.1 ((h _ _).1 (holds_init_iff.2 rfl)))
  · exact String.toByteArray_inj.1 (holds_postInit_iff.1 ((h _ _).1 (holds_postInit_iff.2 rfl)))
  · refine Std.ExtTreeMap.ext_getElem? fun key => Option.ext fun target => ?_
    rw [← holds_rootLink_iff, h, holds_rootLink_iff]
  · refine List.ext_getElem (by simpa using hlen) fun i hi₁ hi₂ => ?_
    rw [List.length_map] at hi₁ hi₂
    have hid₁ := hg₁.numbered i _ (List.getElem?_eq_getElem hi₁)
    have hid₂ := hg₂.numbered i _ (List.getElem?_eq_getElem hi₂)
    rw [List.getElem_map, List.getElem_map]
    exact nodeImage_eq_of_holds hd₁ hd₂ hg₁ hg₂ h (List.getElem_mem hi₁) (List.getElem_mem hi₂) (hid₁.trans hid₂.symm)

end Graph

namespace FreshTree

/-- The tree of a closed graph has the entries that the graph holds. -/
theorem treeAt_of_closed (t : FreshTree) (hg : t.graph.Closed) : t.after.TreeAt t.root (t.graph.items t.display) := by
  rw [Graph.items_eq]
  refine t.treeAt_of_nodup ?_
  have hids := hg.pairwise_id.imp fun {a b} hne (he : a.id = b.id) => hne (congrArg tag he)
  rw [image, Graph.image, List.map_map]
  exact List.pairwise_map.2 hids

/-- Closed graphs whose trees are the same have the same image. -/
theorem image_of_sameTree {t₁ t₂ : FreshTree} (hg₁ : t₁.graph.Closed) (hg₂ : t₂.graph.Closed)
    (h : Disk.SameTree t₁.after t₁.root t₂.after t₂.root) : t₁.image = t₂.image := by
  refine Graph.image_eq_of_holds t₁.columns t₂.columns hg₁ hg₂ fun names e => ?_
  have hmem := fun hnames : names ≠ [] => h.mem_iff (t₁.treeAt_of_closed hg₁) (t₂.treeAt_of_closed hg₂) hnames e
  rw [Graph.mem_items t₁.columns hg₁, Graph.mem_items t₂.columns hg₂] at hmem
  exact ⟨fun hholds => (hmem hholds.names_ne_nil).1 hholds, fun hholds => (hmem hholds.names_ne_nil).2 hholds⟩

end FreshTree

/-- The fingerprint identifies the tree. Graphs with the same bytes, all lengths in which fit, are written as the same tree at any two
fresh roots; and for the graphs of machines with at most `2 ^ 32` actions the converse holds: the same tree has the same bytes. -/
theorem fingerprint_identifies_tree (t₁ t₂ : FreshTree) :
    (t₁.image.FitsLengths → t₂.image.FitsLengths → t₁.bytes = t₂.bytes →
      Disk.SameTree t₁.after t₁.root t₂.after t₂.root) ∧
    ∀ (m₁ m₂ : Machine) (plan₁ plan₂ : Plan), m₁.catalog.size ≤ Catalog.capacity → m₂.catalog.size ≤ Catalog.capacity →
      m₁.plan = .ok plan₁ → m₂.plan = .ok plan₂ → t₁.graph = plan₁.graph → t₂.graph = plan₂.graph →
      Disk.SameTree t₁.after t₁.root t₂.after t₂.root → t₁.bytes = t₂.bytes := by
  have hbytes₁ : t₁.bytes = .ok t₁.image.bytes := Graph.bytes_eq t₁.columns t₁.graph
  have hbytes₂ : t₂.bytes = .ok t₂.image.bytes := Graph.bytes_eq t₂.columns t₂.graph
  rw [hbytes₁, hbytes₂]
  constructor
  · intro hlengths₁ hlengths₂ hbytes
    exact FreshTree.sameTree_of_image (Image.bytes_injective hlengths₁ hlengths₂ (Except.ok.inj hbytes))
  · intro m₁ m₂ plan₁ plan₂ hm₁ hm₂ hplan₁ hplan₂ hgraph₁ hgraph₂ htree
    rw [m₁.plan_eq] at hplan₁
    rw [m₂.plan_eq] at hplan₂
    cases hplan₁
    cases hplan₂
    have hclosed₁ : t₁.graph.Closed := hgraph₁ ▸ m₁.closed_graph hm₁
    have hclosed₂ : t₂.graph.Closed := hgraph₂ ▸ m₂.closed_graph hm₂
    rw [FreshTree.image_of_sameTree hclosed₁ hclosed₂ htree]

/-- The file system takes an entry that stands at most two names below a short root. -/
theorem Operation.fits_of_length {root : String} {item : Location × Entry} (hr : root ≠ "")
    (hroot : root.utf8ByteSize + 2 * (Disk.maxName + 1) ≤ Disk.maxPath) (hnames : ∀ name ∈ item.1, Path.IsName name)
    (hlen : item.1.length ≤ 2) (htarget : ∀ target, item.2 = .link target → Disk.checkPath target = .ok ()) :
    Operation.Fits root item :=
  ⟨hnames, Graph.utf8ByteSize_under_le_maxPath hr hroot hnames hlen, htarget⟩

/-- A graph with two nodes of the same number, and the names of its states. -/
def twins (first second : String) : Graph := ⟨"", first, [⟨0, first, .halt "x", ∅⟩, ⟨0, second, .halt "y", ∅⟩], ∅⟩

/-- The two nodes of this graph are written into the same directory. -/
theorem items_twins (first second : String) (d : Display) : (twins first second).items d =
    [([Graph.initFile], .file (encodeAll (d.initProgram "")).toUTF8),
      ([Graph.postInitFile], .file (encodeAll d.postInitProgram).toUTF8)] ++
      [Node.mk 0 first (.halt "x") ∅, Node.mk 0 second (.halt "y") ∅].flatMap (Graph.nodeItems d) := by
  have hlinks : ∀ (directory : Location) (nested : Bool), Graph.linkItems directory ∅ nested = [] := by
    intro directory nested
    simp [Graph.linkItems]
  simp only [Graph.items, twins, List.flatMap_cons, List.flatMap_nil, hlinks, List.append_nil]

/-- The file system takes every single entry of it. -/
theorem fits_twins (first second : String) (d : Display) {root : String} (hr : root ≠ "")
    (hroot : root.utf8ByteSize + 2 * (Disk.maxName + 1) ≤ Disk.maxPath) :
    ∀ item ∈ (twins first second).items d, Operation.Fits root item := by
  have htag : Path.IsName (tag 0) := isName_tag (utf8ByteSize_tag (by decide))
  have hname : ∀ name ∈ [Graph.initFile, Graph.postInitFile, Graph.executeFile], Path.IsName name :=
    fun name => Graph.isName_program
  intro item hitem
  rw [items_twins] at hitem
  simp only [List.flatMap_cons, List.flatMap_nil, Graph.nodeItems, List.mem_append, List.mem_cons, List.not_mem_nil, or_false]
    at hitem
  refine Operation.fits_of_length hr hroot ?_ ?_ ?_
  · rcases hitem with (rfl | rfl) | (rfl | rfl) | (rfl | rfl)
    all_goals simp [htag, hname]
  · rcases hitem with (rfl | rfl) | (rfl | rfl) | (rfl | rfl) <;> simp
  · rcases hitem with (rfl | rfl) | (rfl | rfl) | (rfl | rfl) <;> simp

/-- A tree at a free name of the working directory. -/
def FreshTree.atName (graph : Graph) (name : String) (disk : Disk) (hdisk : disk.WellFormed) (hsound : disk.defects = ∅)
    (hname : Path.IsName name) (hfree : disk.get? (disk.current ++ [name]) = none)
    (hfits : ∀ item ∈ graph.items ⟨4⟩, Operation.Fits name item) : FreshTree :=
  ⟨graph, ⟨4⟩, name, disk, columns_four, hdisk, Disk.takesRoot_name hsound hname hfree, hfits⟩

theorem isName_copy : Path.IsName "copy" := ⟨by decide, by decide, by decide, by decide, by decide, by decide⟩

theorem get?_noteDisk_copy : noteDisk.get? (noteDisk.current ++ ["copy"]) = none := by decide +kernel

def twinTree : FreshTree :=
  .atName (twins "A" "B") "tree" (Disk.workingIn []) Disk.wellFormed_empty rfl isName_tree (by decide +kernel)
    (fits_twins _ _ _ (by decide) (by decide))

def twinCopy : FreshTree :=
  .atName (twins "C" "C") "copy" noteDisk wellFormed_noteDisk defects_noteDisk isName_copy get?_noteDisk_copy
    (fits_twins _ _ _ (by decide) (by decide))

def zeroingTree : FreshTree :=
  .atName zeroing.graph "tree" (Disk.workingIn []) Disk.wellFormed_empty rfl isName_tree (by decide +kernel)
    (Graph.fits_items (by decide) (zeroing.closed_graph size_catalog_zeroing) (fits_zeroing (by decide) (by decide)))

def zeroingCopy : FreshTree :=
  .atName zeroing.graph "copy" noteDisk wellFormed_noteDisk defects_noteDisk isName_copy get?_noteDisk_copy
    (Graph.fits_items (by decide) (zeroing.closed_graph size_catalog_zeroing) (fits_zeroing (by decide) (by decide)))

/-- Graphs that repeat a number and differ in the names of their states have the same bytes, and what could be written of them is the
same; the trees of one machine at two roots are the same, and so are the bytes. -/
theorem fingerprint_identifies_twins :
    twinTree.image.FitsLengths ∧ twinCopy.image.FitsLengths ∧ twinTree.graph ≠ twinCopy.graph ∧
      twinTree.bytes = twinCopy.bytes ∧ Disk.SameTree twinTree.after "tree" twinCopy.after "copy" ∧
      zeroing.catalog.size ≤ Catalog.capacity ∧ Disk.SameTree zeroingTree.after "tree" zeroingCopy.after "copy" ∧
      zeroingTree.bytes = zeroingCopy.bytes := by
  have himage : twinTree.image = twinCopy.image := rfl
  have hempty : Edges.FitsLengths ∅ := ⟨by simp, by simp⟩
  have hlengths : twinTree.image.FitsLengths := by
    refine ⟨?_, ?_, hempty, ?_, fun n hn => ?_⟩
    · unfold FitsLength
      decide +kernel
    · unfold FitsLength
      decide +kernel
    · decide
    · have htexts : ∀ n ∈ twinTree.image.nodes, (tag n.id).utf8ByteSize < 2 ^ 64 ∧ n.text.utf8ByteSize < 2 ^ 64 := by
        decide +kernel
      have hedges : ∀ n ∈ twinTree.image.nodes, n.edges = ∅ := by
        simp [twinTree, FreshTree.atName, FreshTree.image, Graph.image, twins, Graph.nodeImage]
      refine ⟨(htexts n hn).1, (htexts n hn).2, ?_⟩
      rw [hedges n hn]
      exact hempty
  have hbytes : twinTree.bytes = twinCopy.bytes := by
    rw [FreshTree.bytes, FreshTree.bytes, Graph.bytes_eq twinTree.columns, Graph.bytes_eq twinCopy.columns]
    exact congrArg (fun i : Image => Except.ok i.bytes) himage
  have hsame : Disk.SameTree zeroingTree.after zeroingTree.root zeroingCopy.after zeroingCopy.root := FreshTree.sameTree_of_image rfl
  refine ⟨hlengths, himage ▸ hlengths, by decide, hbytes, ?_, size_catalog_zeroing, hsame, ?_⟩
  · exact (fingerprint_identifies_tree twinTree twinCopy).1 hlengths (himage ▸ hlengths) hbytes
  · exact (fingerprint_identifies_tree zeroingTree zeroingCopy).2 zeroing zeroing _ _ size_catalog_zeroing
      size_catalog_zeroing zeroing.plan_eq zeroing.plan_eq rfl rfl hsame

end DispatchTree
