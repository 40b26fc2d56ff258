import DispatchTree.Proofs.Files.Tree

/-!
# Counting what stands below a root

The list of everything below a directory holds each entry once. If it holds the entries of a graph's tree, it has as many
directories as the graph has nodes, as many links in them as the nodes have edges, and as many links at the root as the root has
edges.
-/

namespace DispatchTree

namespace Disk

variable {d : Disk} {l names : Location} {e : Entry}

/-- The entries below a location, under their names from there on. -/
theorem mem_below : (names, e) ∈ d.below l ↔ names ≠ [] ∧ d.get? (l ++ names) = some e := by
  simp only [below, List.mem_filterMap, Option.ite_none_right_eq_some, Option.some.injEq, Prod.mk.injEq, Bool.and_eq_true,
    List.isPrefixOf_iff_prefix, decide_eq_true_eq, Prod.exists, Std.ExtTreeMap.mem_toList_iff_getElem?_eq_some]
  constructor
  · rintro ⟨_, _, hentry, ⟨⟨rest, rfl⟩, hlen⟩, rfl, rfl⟩
    rw [List.drop_left]
    have hne : rest ≠ [] := by
      rintro rfl
      simp at hlen
    exact ⟨hne, by rw [get?, if_neg (by simp [hne]), hentry]⟩
  · rintro ⟨hne, hentry⟩
    rw [get?, if_neg (by simp [hne])] at hentry
    have hlen : 0 < names.length := List.length_pos_iff.2 hne
    exact ⟨l ++ names, e, hentry, ⟨List.prefix_append l names, by rw [List.length_append]; omega⟩, by rw [List.drop_left], rfl⟩

/-- Each entry below a location is listed once. -/
theorem nodup_below : (d.below l).Nodup := by
  have hnodup : d.entries.toList.Nodup :=
    (Std.ExtTreeMap.distinct_keys_toList (t := d.entries)).imp fun h he => h (by rw [he]; exact Std.ReflCmp.compare_self)
  refine hnodup.filterMap fun a b item ha hb => ?_
  simp only [Option.mem_def, Option.ite_none_right_eq_some, Bool.and_eq_true, List.isPrefixOf_iff_prefix,
    Option.some.injEq] at ha hb
  obtain ⟨⟨⟨rest, hrest⟩, -⟩, rfl⟩ := ha
  obtain ⟨⟨⟨rest', hrest'⟩, -⟩, heq⟩ := hb
  rw [Prod.mk.injEq, ← hrest, ← hrest', List.drop_left, List.drop_left] at heq
  exact Prod.ext (by rw [← hrest, ← hrest', heq.1]) heq.2.symm

end Disk

namespace Graph

/-- A link with so many names. -/
def isLinkAt (depth : Nat) (item : Location × Entry) : Bool :=
  match item.2 with
  | .link _ => item.1.length == depth
  | _ => false

/-- A directory. -/
def isDirectoryItem (item : Location × Entry) : Bool :=
  match item.2 with
  | .directory => true
  | _ => false

variable {g : Graph} {d : Display} {edges : Edges} {nested : Bool}

/-- There is one link for each edge. -/
theorem length_linkItems (directory : Location) (nested : Bool)
    (hkeys : ∀ key target, edges[key]? = some target → key ∈ SymbolPair.allKeys) :
    (linkItems directory edges nested).length = edges.size := by
  have hperm : (SymbolPair.allKeys.filterMap fun key => edges[key]?.map fun target => (key, target)).Perm edges.toList := by
    refine (List.perm_ext_iff_of_nodup ?_ ?_).2 ?_
    · refine SymbolPair.nodup_allKeys.filterMap fun key key' item h h' => ?_
      simp only [Option.mem_def, Option.map_eq_some_iff] at h h'
      obtain ⟨_, -, rfl⟩ := h
      obtain ⟨_, -, h'⟩ := h'
      exact (Prod.mk.inj h').1.symm
    · exact (Std.ExtTreeMap.distinct_keys_toList (t := edges)).imp fun h he => h (by rw [he]; exact Std.ReflCmp.compare_self)
    · rintro ⟨key, target⟩
      simp only [List.mem_filterMap, Option.map_eq_some_iff, Prod.mk.injEq, Std.ExtTreeMap.mem_toList_iff_getElem?_eq_some]
      constructor
      · rintro ⟨_, -, _, hedge, rfl, rfl⟩
        exact hedge
      · exact fun hedge => ⟨key, hkeys key target hedge, target, hedge, rfl, rfl⟩
  rw [← Std.ExtTreeMap.length_toList, ← hperm.length_eq, linkItems_eq]
  simp only [List.length_filterMap_eq_countP, Option.isSome_map]

/-- Links are counted all or not at all, one for each edge. -/
theorem countP_linkItems (p : Location × Entry → Bool) (directory : Location) {b : Bool}
    (hp : ∀ key target, p (directory ++ [key], .link target) = b)
    (hkeys : ∀ key target, edges[key]? = some target → key ∈ SymbolPair.allKeys) :
    (linkItems directory edges nested).countP p = (if b then edges.toList else []).length := by
  have hall : ∀ item ∈ linkItems directory edges nested, p item = b := by
    rintro ⟨names, e⟩ hitem
    obtain ⟨key, -, target, -, rfl, rfl⟩ := mem_linkItems.1 hitem
    exact hp key _
  cases b with
  | true => rw [if_pos rfl, List.countP_eq_length.2 hall, length_linkItems directory nested hkeys, Std.ExtTreeMap.length_toList]
  | false =>
    rw [if_neg (by decide), List.length_nil, List.countP_eq_zero]
    intro item hitem
    rw [hall item hitem]
    decide

/-- What is counted for each node adds up over all nodes. -/
theorem countP_nodes {β : Type} {p : Location × Entry → Bool} {f : Node → List (Location × Entry)} {c : Node → List β}
    {nodes : List Node} (h : ∀ n ∈ nodes, (f n).countP p = (c n).length) :
    (nodes.flatMap f).countP p = (nodes.flatMap c).length := by
  induction nodes with
  | nil => rfl
  | cons n nodes ih =>
    rw [List.flatMap_cons, List.flatMap_cons, List.countP_append, List.length_append, h n List.mem_cons_self,
      ih fun n' hn => h n' (List.mem_cons_of_mem _ hn)]

/-- What the tree of a graph has to count. -/
theorem countP_items (hg : g.Closed) (d : Display) :
    (g.items d).countP isDirectoryItem = g.nodes.length ∧ (g.items d).countP (isLinkAt 2) = g.edgeCount ∧
      (g.items d).countP (isLinkAt 1) = g.rootEdges.size := by
  have hnode : ∀ n ∈ g.nodes, ∀ key target, n.edges[key]? = some target → key ∈ SymbolPair.allKeys :=
    fun n hn key target h => hg.key (some n.id) key target (by rw [hg.follow_node hn, h])
  have hroot : ∀ key target, g.rootEdges[key]? = some target → key ∈ SymbolPair.allKeys :=
    fun key target h => hg.key none key target h
  simp only [items, List.countP_append]
  refine ⟨?_, ?_, ?_⟩
  · rw [countP_nodes (c := fun n => [n]) fun n _ => rfl,
      countP_nodes fun n hn => countP_linkItems isDirectoryItem [tag n.id] (fun _ _ => rfl) (hnode n hn),
      countP_linkItems isDirectoryItem [] (fun _ _ => rfl) hroot]
    simp [isDirectoryItem]
  · rw [countP_nodes (c := fun _ => ([] : List Unit)) fun n _ => rfl,
      countP_nodes fun n hn => countP_linkItems (isLinkAt 2) [tag n.id] (fun _ _ => rfl) (hnode n hn),
      countP_linkItems (isLinkAt 2) [] (fun _ _ => rfl) hroot]
    simp [isLinkAt, edgeCount]
  · rw [countP_nodes (c := fun _ => ([] : List Unit)) fun n _ => rfl,
      countP_nodes fun n hn => countP_linkItems (isLinkAt 1) [tag n.id] (fun _ _ => rfl) (hnode n hn),
      countP_linkItems (isLinkAt 1) [] (fun _ _ => rfl) hroot]
    simp [isLinkAt]

/-- What is counted below a root where the entries of a graph's tree stand. -/
theorem countP_below {disk : Disk} {loc : Location} (hd : 0 < d.columns) (hg : g.Closed)
    (h : ∀ names e, (names, e) ∈ disk.below loc ↔ g.Holds d names e) :
    (disk.below loc).countP isDirectoryItem = g.nodes.length ∧ (disk.below loc).countP (isLinkAt 2) = g.edgeCount ∧
      (disk.below loc).countP (isLinkAt 1) = g.rootEdges.size := by
  have hnodup : (g.items d).Nodup := List.Nodup.of_map _ (nodup_items hg d)
  have hperm : (disk.below loc).Perm (g.items d) :=
    (List.perm_ext_iff_of_nodup Disk.nodup_below hnodup).2 fun item => (h item.1 item.2).trans (mem_items hd hg).symm
  rw [hperm.countP_eq, hperm.countP_eq, hperm.countP_eq]
  exact countP_items hg d

end Graph

end DispatchTree
