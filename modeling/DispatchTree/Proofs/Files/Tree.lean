import DispatchTree.Proofs.Files.Names
import DispatchTree.Proofs.Files.Writing

/-!
# The tree of a graph

What stands below the root of a graph's tree: the programs of the display, a directory with a program for each node, and a link for
each edge. The operations of a build put exactly these entries, each into a directory that was put before, and no two under the same
names.
-/

namespace DispatchTree

namespace Graph

/-- The entries of a graph's tree, under their names below the root. -/
inductive Holds (g : Graph) (d : Display) : Location → Entry → Prop
  | init : Holds g d [initFile] (.file (encodeAll (d.initProgram g.prompt)).toUTF8)
  | postInit : Holds g d [postInitFile] (.file (encodeAll d.postInitProgram).toUTF8)
  | node {n : Node} (hn : n ∈ g.nodes) : Holds g d [tag n.id] .directory
  | program {n : Node} {text : String} (hn : n ∈ g.nodes) (htext : n.program.render d = .ok text) :
      Holds g d [tag n.id, executeFile] (.file text.toUTF8)
  | edge {n : Node} {key : String} {target : Nat} (hn : n ∈ g.nodes) (hedge : n.edges[key]? = some target) :
      Holds g d [tag n.id, key] (.link ("../" ++ tag target))
  | rootEdge {key : String} {target : Nat} (hedge : g.rootEdges[key]? = some target) : Holds g d [key] (.link (tag target))

/-- Nodes bear the numbers of their places, and edges lead under dispatch keys to nodes. -/
structure Closed (g : Graph) : Prop where
  numbered : ∀ (i : Nat) (n : Node), g.nodes[i]? = some n → n.id = i
  key : ∀ position key target, g.follow position key = some target → key ∈ SymbolPair.allKeys
  target : ∀ position key target, g.follow position key = some target → target < g.nodes.length

/-- No name and no path of a graph's tree is longer than a file system takes. -/
def Fits (g : Graph) (d : Display) (root : String) : Prop :=
  ∀ names e, g.Holds d names e →
    (∀ name ∈ names, name.utf8ByteSize ≤ Disk.maxName) ∧ (Path.under root names).utf8ByteSize ≤ Disk.maxPath

end Graph

/-- The graph of a machine is closed, as long as there are numbers enough. -/
theorem Machine.closed_graph (m : Machine) (hm : m.catalog.size ≤ Catalog.capacity) : m.graph.Closed := by
  have hfollow : ∀ position key target, m.graph.follow position key = some target →
      key ∈ SymbolPair.allKeys ∧ target < m.graph.nodes.length := by
    intro position key target h
    obtain ⟨es, hes, htarget⟩ := Option.bind_eq_some_iff.1 h
    obtain ⟨state, rfl⟩ : ∃ state, es = m.links state := by
      cases position with
      | none =>
        rw [Graph.edgesAt, m.graph_rootEdges, Option.some.injEq] at hes
        exact ⟨m.initial, hes.symm⟩
      | some id =>
        simp only [Graph.edgesAt, m.graph_node?, Option.map_eq_some_iff] at hes
        obtain ⟨_, ⟨a, -, rfl⟩, rfl⟩ := hes
        exact ⟨a.next, m.nodeOf_edges id a⟩
    rw [Machine.links, linksOf_getElem? m.complete m.catalog state (m.isSome_catalog_get? state)] at htarget
    simp only [Option.bind_eq_some_iff] at htarget
    obtain ⟨pair, hpair, a, -, htarget⟩ := htarget
    refine ⟨SymbolPair.mem_allKeys.2 ⟨pair, SymbolPair.mem_dispatchKeys_of_ofKey? hpair⟩, ?_⟩
    have hlt := (List.getElem?_eq_some_iff.1 ((Catalog.get?_eq_some_iff hm a target).1 htarget)).1
    simpa [Machine.graph] using hlt
  refine ⟨fun i n hn => ?_, fun p k t h => (hfollow p k t h).1, fun p k t h => (hfollow p k t h).2⟩
  have hnode := m.graph_node? i
  rw [Graph.node?, hn] at hnode
  obtain ⟨a, ha, rfl⟩ := Option.map_eq_some_iff.1 hnode.symm
  exact Machine.nodeOf_id hm (List.getElem?_eq_some_iff.1 ha).1 a

namespace Graph

variable {g : Graph} {d : Display} {root : String}

/-- Every node is found under its number. -/
theorem Closed.node?_id (h : g.Closed) {n : Node} (hn : n ∈ g.nodes) : g.node? n.id = some n := by
  obtain ⟨i, hi⟩ := List.mem_iff_getElem?.1 hn
  rw [h.numbered i n hi, node?, hi]

/-- The edges that are followed from a number are those of its node. -/
theorem Closed.follow_node (h : g.Closed) {n : Node} (hn : n ∈ g.nodes) (key : String) :
    g.follow (some n.id) key = n.edges[key]? := by
  rw [follow, edgesAt, h.node?_id hn]
  rfl

/-- Different nodes have different tags. -/
theorem Closed.pairwise_id (h : g.Closed) : g.nodes.Pairwise fun a b => tag a.id ≠ tag b.id := by
  rw [List.pairwise_iff_getElem]
  intro i j hi hj hij he
  have hid := tag_injective he
  rw [h.numbered i _ (List.getElem?_eq_getElem hi), h.numbered j _ (List.getElem?_eq_getElem hj)] at hid
  omega

/-! ## The entries in the order of the operations -/

/-- The text of a program. -/
def textOf (d : Display) (p : Program) : String := (p.render d).toOption.getD ""

/-- On a display that has columns every program has a text. -/
theorem render_eq (hd : 0 < d.columns) (p : Program) : p.render d = .ok (textOf d p) := by
  obtain ⟨text, htext⟩ := p.exists_render hd
  rw [textOf, htext]
  rfl

/-- The directory and the program of a node. -/
def nodeItems (d : Display) (n : Node) : List (Location × Entry) :=
  [([tag n.id], .directory), ([tag n.id, executeFile], .file (textOf d n.program).toUTF8)]

/-- The links of a directory. -/
def linkItems (directory : Location) (edges : Edges) (nested : Bool) : List (Location × Entry) :=
  SymbolPair.all.flatMap fun pair => pair.dispatchKeys.filterMap fun key =>
    edges[key]?.map fun target => (directory ++ [key], .link (linkTarget target nested))

/-- All entries of a graph's tree. -/
def items (g : Graph) (d : Display) : List (Location × Entry) :=
  [([initFile], .file (encodeAll (d.initProgram g.prompt)).toUTF8),
    ([postInitFile], .file (encodeAll d.postInitProgram).toUTF8)] ++
    g.nodes.flatMap (nodeItems d) ++
    g.nodes.flatMap (fun n => linkItems [tag n.id] n.edges true) ++
    linkItems [] g.rootEdges false

/-- The entries before the links, for some of the nodes. -/
def programItems (g : Graph) (d : Display) (nodes : List Node) : List (Location × Entry) :=
  [([initFile], .file (encodeAll (d.initProgram g.prompt)).toUTF8),
    ([postInitFile], .file (encodeAll d.postInitProgram).toUTF8)] ++ nodes.flatMap (nodeItems d)

/-- The operations before the links, for some of the nodes. -/
def programOperations (g : Graph) (d : Display) (root : String) (nodes : List Node) : List Operation :=
  [.file (Path.join root initFile) (.ok (encodeAll (d.initProgram g.prompt))),
    .file (Path.join root postInitFile) (.ok (encodeAll d.postInitProgram))] ++ nodes.flatMap (nodeOperations d root)

/-- What a tree holds: the programs, the links of the nodes and the links of the root. -/
theorem items_eq_append (g : Graph) (d : Display) : g.items d =
    g.programItems d g.nodes ++ g.nodes.flatMap (fun n => linkItems [tag n.id] n.edges true) ++ linkItems [] g.rootEdges false := rfl

/-- The operations in the same order. -/
theorem operations_eq_append (g : Graph) (d : Display) (root : String) : g.operations d root =
    g.programOperations d root g.nodes ++ g.nodes.flatMap (fun n => linkOperations (Path.join root (tag n.id)) n.state n.edges true) ++
      linkOperations root g.initial g.rootEdges false := rfl

/-- A link in the directory of a node leads up and to the other node. -/
theorem linkTarget_nested (id : Nat) : linkTarget id true = "../" ++ tag id := by
  have hslash : '/' ∉ (tag id).toList := fun h => absurd (mem_tagChars_of_mem_tag h) (by decide)
  have hup : (".." : String).isEmpty = false ∧ (".." : String).endsWith "/" = false := by decide +kernel
  simp only [linkTarget, Path.join, Path.isAbsolute_of_noSlash hslash, hup.1, hup.2, if_true, Bool.false_eq_true, if_false,
    Bool.or_self]
  rfl

/-- The links of edges, by the keys in their order. -/
theorem linkItems_eq (directory : Location) (edges : Edges) (nested : Bool) :
    linkItems directory edges nested = SymbolPair.allKeys.filterMap fun key =>
      edges[key]?.map fun target => (directory ++ [key], .link (linkTarget target nested)) := by
  rw [linkItems, SymbolPair.allKeys, List.filterMap_flatMap]

/-- There is one link for each edge, under its key. -/
theorem mem_linkItems {directory names : Location} {edges : Edges} {nested : Bool} {e : Entry} :
    (names, e) ∈ linkItems directory edges nested ↔ ∃ key ∈ SymbolPair.allKeys, ∃ target,
      edges[key]? = some target ∧ names = directory ++ [key] ∧ e = .link (linkTarget target nested) := by
  simp only [linkItems_eq, List.mem_filterMap, Option.map_eq_some_iff, Prod.mk.injEq]
  constructor
  · rintro ⟨key, hkey, target, hedge, rfl, rfl⟩
    exact ⟨key, hkey, target, hedge, rfl, rfl⟩
  · rintro ⟨key, hkey, target, hedge, rfl, rfl⟩
    exact ⟨key, hkey, target, hedge, rfl, rfl⟩

/-- The entries are those of the graph's tree, if all programs can be rendered. -/
theorem mem_items_of_render (hr : ∀ n ∈ g.nodes, n.program.render d = .ok (textOf d n.program)) (hg : g.Closed) {names : Location}
    {e : Entry} : (names, e) ∈ g.items d ↔ g.Holds d names e := by
  simp only [items, List.mem_append, List.mem_flatMap, List.mem_cons, List.not_mem_nil, or_false, nodeItems, Prod.mk.injEq]
  constructor
  · rintro ((((⟨rfl, rfl⟩ | ⟨rfl, rfl⟩) | ⟨n, hn, ⟨rfl, rfl⟩ | ⟨rfl, rfl⟩⟩) | ⟨n, hn, h⟩) | h)
    · exact .init
    · exact .postInit
    · exact .node hn
    · exact .program hn (hr n hn)
    · obtain ⟨key, -, target, hedge, rfl, rfl⟩ := mem_linkItems.1 h
      rw [linkTarget_nested]
      exact .edge hn hedge
    · obtain ⟨key, -, target, hedge, rfl, rfl⟩ := mem_linkItems.1 h
      exact .rootEdge hedge
  · intro h
    cases h with
    | init => exact .inl (.inl (.inl (.inl ⟨rfl, rfl⟩)))
    | postInit => exact .inl (.inl (.inl (.inr ⟨rfl, rfl⟩)))
    | @node n hn => exact .inl (.inl (.inr ⟨n, hn, .inl ⟨rfl, rfl⟩⟩))
    | @program n text hn htext =>
      refine .inl (.inl (.inr ⟨n, hn, .inr ⟨rfl, ?_⟩⟩))
      rw [Except.ok.inj (htext.symm.trans (hr n hn))]
    | @edge n key target hn hedge =>
      have hkey := hg.key (some n.id) key target (by rw [hg.follow_node hn, hedge])
      exact .inl (.inr ⟨n, hn, mem_linkItems.2 ⟨key, hkey, target, hedge, rfl, by rw [linkTarget_nested]⟩⟩)
    | @rootEdge key target hedge =>
      exact .inr (mem_linkItems.2 ⟨key, hg.key none key target hedge, target, hedge, rfl, rfl⟩)

/-- The entries that are written are those that the tree holds. -/
theorem mem_items (hd : 0 < d.columns) (hg : g.Closed) {names : Location} {e : Entry} :
    (names, e) ∈ g.items d ↔ g.Holds d names e :=
  mem_items_of_render (fun n _ => render_eq hd n.program) hg

/-! ## The operations put the entries -/

/-- The operations for edges put the links of the edges. -/
theorem writes_linkOperations (directory : Location) (state : String) (edges : Edges) (nested : Bool) :
    Operation.Writes root (linkOperations (Path.under root directory) state edges nested)
      (linkItems directory edges nested) := by
  have hkeys : ∀ (pair : SymbolPair) (keys : List String), Operation.Writes root
      (keys.filterMap fun key => edges[key]?.map fun target =>
        .link (linkTarget target nested) (Path.join (Path.under root directory) key) ⟨state, pair⟩)
      (keys.filterMap fun key => edges[key]?.map fun target => (directory ++ [key], .link (linkTarget target nested))) := by
    intro pair keys
    induction keys with
    | nil => exact .nil
    | cons key keys ih =>
      cases hedge : edges[key]? with
      | none => simpa [List.filterMap_cons, hedge] using ih
      | some target =>
        simp only [List.filterMap_cons, hedge, Option.map_some]
        rw [← Path.under_concat]
        exact .put (.link _) ih
  rw [linkOperations, ← List.append_nil (linkItems directory edges nested)]
  exact (Operation.writes_flatMap fun pair _ => hkeys pair pair.dispatchKeys).append (.linksDone .nil)

/-- The operations for nodes put their programs, where all of these have a text. -/
theorem writes_programs_of_render (g : Graph) {nodes : List Node}
    (hr : ∀ n ∈ nodes, n.program.render d = .ok (textOf d n.program)) :
    Operation.Writes root (g.programOperations d root nodes) (g.programItems d nodes) := by
  refine .append ?_ (Operation.writes_flatMap fun n hn => ?_)
  · exact .put (.file [initFile]) (.put (.file [postInitFile]) .nil)
  · rw [nodeOperations, hr n hn]
    exact .put (.directory [tag n.id]) (.put (.file [tag n.id, executeFile]) (.nodeDone .nil))

/-- On a display that has columns the operations for nodes put all programs. -/
theorem writes_programs (hd : 0 < d.columns) (g : Graph) (nodes : List Node) :
    Operation.Writes root (g.programOperations d root nodes) (g.programItems d nodes) :=
  writes_programs_of_render g fun n _ => render_eq hd n.program

/-- The operations of a build put the entries of the tree, if all programs can be rendered. -/
theorem writes_operations_of_render (hr : ∀ n ∈ g.nodes, n.program.render d = .ok (textOf d n.program)) :
    Operation.Writes root (g.operations d root) (g.items d) := by
  refine .append (.append (writes_programs_of_render g hr) (Operation.writes_flatMap fun n _ => ?_)) ?_
  · exact writes_linkOperations [tag n.id] n.state n.edges true
  · exact writes_linkOperations [] g.initial g.rootEdges false

/-- The operations of a graph put the entries of its tree. -/
theorem writes_operations (hd : 0 < d.columns) : Operation.Writes root (g.operations d root) (g.items d) :=
  writes_operations_of_render fun n _ => render_eq hd n.program

/-- Every entry stands in a directory that is put before it. -/
theorem ordered_items (g : Graph) (d : Display) : Operation.Ordered [[]] (g.items d) := by
  have hnodes : ∀ (nodes : List Node) (seen : List Location), [] ∈ seen → Operation.Ordered seen (nodes.flatMap (nodeItems d)) := by
    intro nodes
    induction nodes with
    | nil => exact fun _ _ => trivial
    | cons n nodes ih =>
      intro seen hseen
      rw [List.flatMap_cons]
      refine Operation.ordered_append ?_ fun seen' hsub _ => ih seen' (hsub hseen)
      exact ⟨⟨[], tag n.id, rfl, hseen⟩, ⟨[tag n.id], executeFile, rfl, List.mem_cons_self⟩, trivial⟩
  refine Operation.ordered_append (Operation.ordered_append (Operation.ordered_append ?_ ?_) ?_) ?_
  · exact ⟨⟨[], initFile, rfl, by simp⟩, ⟨[], postInitFile, rfl, by simp⟩, trivial⟩
  · exact fun seen hsub _ => hnodes g.nodes seen (hsub (by simp))
  · -- the links of a node stand in its directory
    intro seen _ hput
    refine Operation.ordered_of_seen fun item hitem => ?_
    obtain ⟨n, hn, hitem⟩ := List.mem_flatMap.1 hitem
    obtain ⟨key, -, target, -, hnames, -⟩ := mem_linkItems.1 hitem
    refine ⟨[tag n.id], key, hnames, hput ([tag n.id], .directory) ?_ rfl⟩
    exact List.mem_append_right _ (List.mem_flatMap.2 ⟨n, hn, by simp [nodeItems]⟩)
  · intro seen hsub _
    refine Operation.ordered_of_seen fun item hitem => ?_
    obtain ⟨key, -, target, -, hnames, -⟩ := mem_linkItems.1 hitem
    exact ⟨[], key, hnames, hsub (by simp)⟩

/-! ### No two entries have the same names -/

/-- No two links of a directory have the same name. -/
theorem nodup_linkItems (directory : Location) (edges : Edges) (nested : Bool) :
    ((linkItems directory edges nested).map Prod.fst).Nodup := by
  rw [linkItems_eq, List.map_filterMap]
  refine SymbolPair.nodup_allKeys.filterMap fun key key' names h h' => ?_
  simp only [Option.map_map, Option.mem_def, Option.map_eq_some_iff, Function.comp_apply] at h h'
  obtain ⟨-, -, rfl⟩ := h
  obtain ⟨-, -, h'⟩ := h'
  simpa using h'.symm

/-- Links are named with keys. -/
theorem names_linkItems {directory names : Location} {edges : Edges} {nested : Bool}
    (h : names ∈ (linkItems directory edges nested).map Prod.fst) : ∃ key ∈ SymbolPair.allKeys, names = directory ++ [key] := by
  obtain ⟨⟨_, e⟩, hitem, rfl⟩ := List.mem_map.1 h
  obtain ⟨key, hkey, -, -, hnames, -⟩ := mem_linkItems.1 hitem
  exact ⟨key, hkey, hnames⟩

/-- A node has a directory and its program in it. -/
theorem names_nodeItems {n : Node} {names : Location} (h : names ∈ (nodeItems d n).map Prod.fst) :
    names = [tag n.id] ∨ names = [tag n.id, executeFile] := by
  simpa [nodeItems] using h

/-- Entries of different nodes have different names. -/
theorem nodup_nodes {nodes : List Node} (hids : nodes.Pairwise fun a b => tag a.id ≠ tag b.id)
    {f : Node → List (Location × Entry)} (hf : ∀ n, ((f n).map Prod.fst).Nodup)
    (hhead : ∀ n, ∀ names ∈ (f n).map Prod.fst, names.head? = some (tag n.id)) :
    ((nodes.flatMap f).map Prod.fst).Nodup := by
  rw [List.map_flatMap]
  refine List.nodup_flatMap.2 ⟨fun n _ => hf n, hids.imp fun {a b} hne names ha hb => hne ?_⟩
  have hhead' := (hhead a names ha).symm.trans (hhead b names hb)
  exact Option.some.inj hhead'

/-- If no two nodes have the same tag, no two entries have the same names. -/
theorem nodup_items_of_pairwise (hids : g.nodes.Pairwise fun a b => tag a.id ≠ tag b.id) (d : Display) :
    ((g.items d).map Prod.fst).Nodup := by
  have hinit : ∀ id, tag id ≠ initFile := fun id => tag_ne (c := 'i') (by decide) (by decide)
  have hpost : ∀ id, tag id ≠ postInitFile := fun id => tag_ne (c := 'i') (by decide) (by decide)
  have hnodes : ∀ {names}, names ∈ (g.nodes.flatMap (nodeItems d)).map Prod.fst →
      ∃ n ∈ g.nodes, names = [tag n.id] ∨ names = [tag n.id, executeFile] := by
    intro names h
    rw [List.map_flatMap] at h
    obtain ⟨n, hn, h⟩ := List.mem_flatMap.1 h
    exact ⟨n, hn, names_nodeItems h⟩
  have hlinks : ∀ {names}, names ∈ (g.nodes.flatMap fun n => linkItems [tag n.id] n.edges true).map Prod.fst →
      ∃ n ∈ g.nodes, ∃ key ∈ SymbolPair.allKeys, names = [tag n.id, key] := by
    intro names h
    rw [List.map_flatMap] at h
    obtain ⟨n, hn, h⟩ := List.mem_flatMap.1 h
    exact ⟨n, hn, names_linkItems h⟩
  rw [items, List.map_append, List.map_append, List.map_append, List.nodup_append, List.nodup_append, List.nodup_append]
  refine ⟨⟨⟨?_, ?_, ?_⟩, ?_, ?_⟩, nodup_linkItems _ _ _, ?_⟩
  · show [[initFile], [postInitFile]].Nodup
    decide
  · refine nodup_nodes hids (fun n => by simp [nodeItems]) fun n names h => ?_
    rcases names_nodeItems h with rfl | rfl <;> rfl
  · -- the programs of the display and the nodes
    intro names h names' h' he
    simp only [List.map_cons, List.map_nil, List.mem_cons, List.not_mem_nil, or_false] at h
    obtain ⟨n, -, rfl | rfl⟩ := hnodes h' <;> rcases h with rfl | rfl
    · exact hinit n.id (List.cons.inj he).1.symm
    · exact hpost n.id (List.cons.inj he).1.symm
    · simp at he
    · simp at he
  · refine nodup_nodes hids (fun n => nodup_linkItems _ _ _) fun n names h => ?_
    obtain ⟨key, -, rfl⟩ := names_linkItems h
    rfl
  · -- the links of the nodes, which have two names, and what was put before
    intro names h names' h' he
    obtain ⟨n, -, key, hkey, rfl⟩ := hlinks h'
    rcases List.mem_append.1 h with h | h
    · simp only [List.map_cons, List.map_nil, List.mem_cons, List.not_mem_nil, or_false] at h
      rcases h with rfl | rfl <;> simp at he
    · obtain ⟨n', -, rfl | rfl⟩ := hnodes h
      · simp at he
      · obtain ⟨-, hrest⟩ := List.cons.inj he
        exact SymbolPair.key_ne hkey (by decide) (List.cons.inj hrest).1.symm
  · -- the links at the root, which are named by keys, and all others
    intro names h names' h' he
    obtain ⟨key, hkey, rfl⟩ := names_linkItems h'
    rcases List.mem_append.1 h with h | h
    · rcases List.mem_append.1 h with h | h
      · simp only [List.map_cons, List.map_nil, List.mem_cons, List.not_mem_nil, or_false] at h
        rcases h with rfl | rfl
        · exact SymbolPair.key_ne hkey (by decide) (List.cons.inj he).1.symm
        · exact SymbolPair.key_ne hkey (by decide) (List.cons.inj he).1.symm
      · obtain ⟨n, -, rfl | rfl⟩ := hnodes h
        · exact SymbolPair.tag_ne_key hkey (List.cons.inj he).1
        · simp at he
    · obtain ⟨n, -, key', -, rfl⟩ := hlinks h
      simp at he

/-- No two entries of a tree stand at the same place. -/
theorem nodup_items (hg : g.Closed) (d : Display) : ((g.items d).map Prod.fst).Nodup := nodup_items_of_pairwise hg.pairwise_id d

/-! ### The file system takes the entries -/

/-- Every edge leads to a node. -/
theorem Closed.exists_node (hg : g.Closed) {position : Option Nat} {key : String} {target : Nat}
    (h : g.follow position key = some target) : ∃ n ∈ g.nodes, n.id = target := by
  have hlt := hg.target position key target h
  exact ⟨g.nodes[target], List.getElem_mem hlt, hg.numbered target _ (List.getElem?_eq_getElem hlt)⟩

/-- The files of programs have names that can be names of files. -/
theorem isName_program {name : String} (h : name ∈ [initFile, postInitFile, executeFile]) : Path.IsName name := by
  have hall : ∀ name ∈ [initFile, postInitFile, executeFile], name ≠ "" ∧ name ≠ "." ∧ name ≠ ".." ∧ '/' ∉ name.toList ∧
      '\x00' ∉ name.toList ∧ name.utf8ByteSize ≤ Disk.maxName := by decide
  obtain ⟨hempty, hpoint, hpoints, hslash, hnul, hshort⟩ := hall name h
  exact ⟨hempty, hpoint, hpoints, hslash, hnul, hshort⟩

/-- The target of a link to a node is a path that the file system takes. -/
theorem checkPath_target {id : Nat} (h : Path.IsName (tag id)) :
    Disk.checkPath (tag id) = .ok () ∧ Disk.checkPath ("../" ++ tag id) = .ok () := by
  have hsize := h.short
  refine ⟨Disk.checkPath_eq_ok.2 ⟨h.noNul, h.ne_empty, ?_⟩, Disk.checkPath_eq_ok.2 ⟨?_, ?_, ?_⟩⟩
  · exact Nat.le_trans hsize (by decide)
  · rw [String.toList_append, List.mem_append]
    exact not_or.2 ⟨by decide, h.noNul⟩
  · intro he
    have hnil := congrArg String.toList he
    simp at hnil
  · rw [String.utf8ByteSize_append]
    exact Nat.le_trans (Nat.add_le_add_left hsize _) (by decide)

/-- All names in a tree can be names of files, if the tags of its nodes are. -/
theorem Holds.isName (hg : g.Closed) (htag : ∀ n ∈ g.nodes, Path.IsName (tag n.id)) {names : Location} {e : Entry}
    (h : g.Holds d names e) : ∀ name ∈ names, Path.IsName name := by
  cases h with
  | init => simpa using isName_program (by simp)
  | postInit => simpa using isName_program (by simp)
  | node hn => simpa using htag _ hn
  | program hn => simpa using ⟨htag _ hn, isName_program (by simp)⟩
  | @edge n key target hn hedge =>
    have hkey := hg.key (some n.id) key target (by rw [hg.follow_node hn, hedge])
    simpa using ⟨htag _ hn, SymbolPair.isName_key hkey⟩
  | rootEdge hedge => simpa using SymbolPair.isName_key (hg.key none _ _ hedge)

/-- The file system takes all entries of a tree that fits. -/
theorem fits_items (hd : 0 < d.columns) (hg : g.Closed) (hfits : g.Fits d root) :
    ∀ item ∈ g.items d, Operation.Fits root item := by
  have htag : ∀ n ∈ g.nodes, Path.IsName (tag n.id) := by
    intro n hn
    exact isName_tag ((hfits _ _ (.node hn)).1 (tag n.id) List.mem_cons_self)
  have htarget : ∀ position key target, g.follow position key = some target → Path.IsName (tag target) := by
    intro position key target h
    obtain ⟨n, hn, rfl⟩ := hg.exists_node h
    exact htag n hn
  rintro ⟨names, e⟩ hitem
  have hholds := (mem_items hd hg).1 hitem
  refine ⟨?_, (hfits _ _ hholds).2, ?_⟩
  · exact hholds.isName hg htag
  · rintro target rfl
    cases hholds with
    | @edge n key target hn hedge =>
      exact (checkPath_target (htarget (some n.id) key target (by rw [hg.follow_node hn, hedge]))).2
    | rootEdge hedge => exact (checkPath_target (htarget none _ _ hedge)).1

/-- Each name below the root adds at most a slash and the length of a name. -/
theorem utf8ByteSize_under_le {names : Location} (hr : root ≠ "") (h : ∀ name ∈ names, Path.IsName name) :
    (Path.under root names).utf8ByteSize ≤ root.utf8ByteSize + names.length * (Disk.maxName + 1) := by
  induction names generalizing root with
  | nil => exact Nat.le_add_right _ _
  | cons name names ih =>
    have hname := h name List.mem_cons_self
    have hjoin := Path.utf8ByteSize_join_le hname hr
    have hrest := ih (Path.join_ne_empty hname hr) fun x hx => h x (List.mem_cons_of_mem _ hx)
    rw [Path.under_cons, List.length_cons, Nat.succ_mul]
    omega

/-- Two more names can follow a short root. -/
theorem utf8ByteSize_under_le_maxPath {names : Location} (hr : root ≠ "")
    (hroot : root.utf8ByteSize + 2 * (Disk.maxName + 1) ≤ Disk.maxPath) (h : ∀ name ∈ names, Path.IsName name)
    (hlen : names.length ≤ 2) : (Path.under root names).utf8ByteSize ≤ Disk.maxPath := by
  have hpath := utf8ByteSize_under_le hr h
  have hmul := Nat.mul_le_mul_right (Disk.maxName + 1) hlen
  omega

/-- The tree of a graph fits if its numbers are not too large for tags and two more names can follow its root. -/
theorem fits_of_length (hg : g.Closed) (hr : root ≠ "") (hnodes : g.nodes.length ≤ 16 ^ Disk.maxName)
    (hroot : root.utf8ByteSize + 2 * (Disk.maxName + 1) ≤ Disk.maxPath) : g.Fits d root := by
  have htag : ∀ n ∈ g.nodes, Path.IsName (tag n.id) := by
    intro n hn
    obtain ⟨i, hi⟩ := List.mem_iff_getElem?.1 hn
    have hlt := (List.getElem?_eq_some_iff.1 hi).1
    exact isName_tag (utf8ByteSize_tag (by rw [hg.numbered i n hi]; omega))
  intro names e h
  have hnames := h.isName hg htag
  have hlen : names.length ≤ 2 := by
    cases h <;> simp
  exact ⟨fun name hname => (hnames name hname).short, utf8ByteSize_under_le_maxPath hr hroot hnames hlen⟩

end Graph

end DispatchTree
