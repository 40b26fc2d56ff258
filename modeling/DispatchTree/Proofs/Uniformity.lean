import DispatchTree.Proofs.Files.Tree
import DispatchTree.Proofs.Renaming.Graph
import DispatchTree.Proofs.Simulation

/-!
# Compiled graphs are closed and uniform

What the nodes of a compiled graph have in common, whether or not they can be reached from the root. The edges of a state are a
function of the state: none if the machine stops there (`links_eq_empty_iff`), and else one under each of the eighteen dispatch
keys, to the node of the row's action for the key's pair (`dispatches_links`). Every node has the edges of the state it enters
(`exists_of_mem_nodes`), and the root those of the initial state, so that what is to be said of all edges of a graph is said of the
edges of a state.
-/

namespace DispatchTree

/-- Whether a program goes on. -/
def Program.isStep : Program → Bool
  | .halt _ => false
  | .step _ _ => true

namespace Plan

/-- The edges of a full row: there is one under each dispatch key and no other, and both keys of a pair lead to the number of the
row's action for that pair. -/
structure Dispatches (plan : Plan) (state : String) (edges : Edges) : Prop where
  size : edges.size = 18
  keys : ∀ key : String, key ∈ edges ↔ ∃ p : SymbolPair, key ∈ p.dispatchKeys
  targets : ∀ p : SymbolPair, ∃ a id, plan.table.lookup state p = some a ∧ plan.catalog.get? a = some id ∧
    ∀ key ∈ p.dispatchKeys, edges[key]? = some id

/-- What holds of all nodes of a plan and of its root. -/
structure Uniform (plan : Plan) (initial : String) : Prop where
  /-- There is one node for each number. -/
  length : plan.graph.nodes.length = plan.catalog.size
  numbered : ∀ (i : Nat) (n : Node), plan.graph.nodes[i]? = some n → n.id = i ∧ ∃ a, plan.catalog.action? i = some a ∧ n.state = a.next
  /-- A node halts exactly if it has no edges. -/
  halting : ∀ n ∈ plan.graph.nodes, n.program.isStep = false ↔ n.edges = ∅
  dispatches : ∀ n ∈ plan.graph.nodes, n.edges ≠ ∅ → plan.Dispatches n.state n.edges
  rootDispatches : plan.graph.rootEdges ≠ ∅ → plan.Dispatches initial plan.graph.rootEdges
  closed : ∀ n ∈ plan.graph.nodes, ∀ (key : String) (target : Nat), n.edges[key]? = some target → ∃ n' ∈ plan.graph.nodes, n'.id = target
  rootClosed : ∀ (key : String) (target : Nat), plan.graph.rootEdges[key]? = some target → ∃ n ∈ plan.graph.nodes, n.id = target
  /-- Nodes that enter the same state have the same edges. -/
  sameEdges : ∀ n ∈ plan.graph.nodes, ∀ n' ∈ plan.graph.nodes, n.state = n'.state → n.edges = n'.edges
  /-- A node that enters the initial state has the edges of the root. -/
  rootSameEdges : ∀ n ∈ plan.graph.nodes, n.state = initial → n.edges = plan.graph.rootEdges
  rootEmpty : plan.graph.rootEdges = ∅ ↔ plan.table.isTerminal initial = true
  edgeCount : plan.graph.edgeCount = 18 * (plan.graph.nodes.filter fun n => n.program.isStep).length

end Plan

/-- Edges under all dispatch keys and no others are eighteen. -/
theorem Edges.size_of_keys {es : Edges} (h : ∀ key : String, key ∈ es ↔ ∃ p : SymbolPair, key ∈ p.dispatchKeys) : es.size = 18 := by
  have hnodup : es.keys.Nodup :=
    (Std.ExtTreeMap.distinct_keys (t := es)).imp fun hne he => hne (Std.LawfulEqOrd.compare_eq_iff_eq.2 he)
  have hperm : es.keys.Perm SymbolPair.allKeys := by
    rw [List.perm_ext_iff_of_nodup hnodup SymbolPair.nodup_allKeys]
    intro key
    rw [Std.ExtTreeMap.mem_keys, h, SymbolPair.mem_allKeys]
  have hlength : SymbolPair.allKeys.length = 18 := rfl
  rw [← Std.ExtTreeMap.length_keys, hperm.length_eq, hlength]

/-- The number of edges, if a node has eighteen or none. -/
theorem length_edges_of_nodes (nodes : List Node) (h : ∀ n ∈ nodes, n.edges.size = if n.program.isStep then 18 else 0) :
    (nodes.flatMap fun n => n.edges.toList).length = 18 * (nodes.filter fun n => n.program.isStep).length := by
  induction nodes with
  | nil => rfl
  | cons n nodes ih =>
    have hn := h n List.mem_cons_self
    have htail := ih fun n' hn' => h n' (List.mem_cons_of_mem _ hn')
    rw [List.flatMap_cons, List.length_append, Std.ExtTreeMap.length_toList, hn, htail]
    cases hstep : n.program.isStep with
    | false => simp [hstep]
    | true => simp [hstep]; omega

namespace Machine

variable {m : Machine} {state : String}

/-! ## The edges of a state -/

/-- A key has an edge from a state exactly if the machine goes on from there and the key belongs to a pair. -/
theorem mem_links (h : state ∈ m.mentioned) (key : String) :
    key ∈ m.links state ↔ m.stops state = false ∧ ∃ p : SymbolPair, key ∈ p.dispatchKeys := by
  rw [Std.ExtTreeMap.mem_iff_isSome_getElem?, m.links_getElem? h]
  constructor
  · intro hsome
    obtain ⟨id, hid⟩ := Option.isSome_iff_exists.1 hsome
    simp only [Option.bind_eq_some_iff] at hid
    obtain ⟨p, hp, a, ha, -⟩ := hid
    refine ⟨?_, p, SymbolPair.mem_dispatchKeys_of_ofKey? hp⟩
    unfold step? at ha
    split at ha
    · cases ha
    · rename_i hstops
      simpa using hstops
  · rintro ⟨hstops, p, hp⟩
    have hstep : m.step? state p = some ((m.action? state p).getD .invalid) := by rw [step?, hstops]; rfl
    rw [SymbolPair.ofKey?_of_mem hp, Option.bind_some, hstep, Option.bind_some]
    exact (m.isSome_catalog_get?_iff _).2 ⟨state, h, p, hstep⟩

/-- A state has no edges exactly if the machine stops there. -/
theorem links_eq_empty_iff (h : state ∈ m.mentioned) : m.links state = ∅ ↔ m.stops state = true := by
  constructor
  · intro hempty
    by_contra hstops
    have hmem := (mem_links h _).2 ⟨by simpa using hstops, ⟨.zero, .zero⟩, List.mem_cons_self⟩
    rw [hempty] at hmem
    exact Std.ExtTreeMap.not_mem_empty hmem
  · intro hstops
    refine Std.ExtTreeMap.ext_getElem? fun key => ?_
    have hmem : key ∉ m.links state := fun hmem => by simp [((mem_links h key).1 hmem).1] at hstops
    rw [Std.ExtTreeMap.getElem?_eq_none hmem, Std.ExtTreeMap.getElem?_empty]

/-- The edges of a state from which the machine goes on. -/
theorem dispatches_links (h : state ∈ m.mentioned) (hstops : m.stops state = false) :
    Plan.Dispatches ⟨m.complete, m.catalog, m.graph⟩ state (m.links state) := by
  have hkeys : ∀ key : String, key ∈ m.links state ↔ ∃ p : SymbolPair, key ∈ p.dispatchKeys := by
    intro key
    rw [mem_links h, hstops]
    simp
  refine ⟨Edges.size_of_keys hkeys, hkeys, fun p => ?_⟩
  have hstep : m.step? state p = some ((m.action? state p).getD .invalid) := by rw [step?, hstops]; rfl
  obtain ⟨id, hid⟩ := Option.isSome_iff_exists.1 ((m.isSome_catalog_get?_iff _).2 ⟨state, h, p, hstep⟩)
  refine ⟨_, id, (m.complete_lookup h p).trans hstep, hid, fun key hkey => ?_⟩
  rw [m.links_getElem? h, SymbolPair.ofKey?_of_mem hkey, Option.bind_some, hstep, Option.bind_some, hid]

/-- A state with edges dispatches on all keys. -/
theorem dispatches_of_ne_empty (h : state ∈ m.mentioned) (hne : m.links state ≠ ∅) :
    Plan.Dispatches ⟨m.complete, m.catalog, m.graph⟩ state (m.links state) := by
  refine dispatches_links h ?_
  cases hstops : m.stops state with
  | false => rfl
  | true => exact absurd ((links_eq_empty_iff h).2 hstops) hne

/-! ## The nodes -/

/-- A node enters a state that is mentioned, goes on unless the machine stops there, and has the edges of that state. -/
theorem exists_of_mem_nodes {n : Node} (hn : n ∈ m.graph.nodes) :
    n.state ∈ m.mentioned ∧ n.program.isStep = !m.stops n.state ∧ n.edges = m.links n.state := by
  obtain ⟨i, hi⟩ := List.mem_iff_getElem?.1 hn
  have hnode := m.graph_node? i
  rw [Graph.node?, hi] at hnode
  obtain ⟨a, ha, rfl⟩ := Option.map_eq_some_iff.1 hnode.symm
  refine ⟨next_mem_of_catalog (Catalog.isSome_get?_of_getElem? ha), ?_, m.nodeOf_edges i a⟩
  show (Graph.programOf m.complete a).isStep = !m.stops a.next
  rw [m.programOf_eq, ← m.message?_isSome]
  cases m.message? a.next with
  | none => rfl
  | some message => rfl

/-- The nodes that halt are those without edges. -/
theorem halting_iff {n : Node} (hn : n ∈ m.graph.nodes) : n.program.isStep = false ↔ n.edges = ∅ := by
  obtain ⟨hstate, hstep, hedges⟩ := exists_of_mem_nodes hn
  rw [hstep, hedges, links_eq_empty_iff hstate, Bool.not_eq_false']

/-- A node that goes on has eighteen edges, and one that halts has none. -/
theorem size_edges {n : Node} (hn : n ∈ m.graph.nodes) : n.edges.size = if n.program.isStep then 18 else 0 := by
  obtain ⟨hstate, hstep, hedges⟩ := exists_of_mem_nodes hn
  cases hprogram : n.program.isStep with
  | false =>
    rw [(halting_iff hn).1 hprogram]
    rfl
  | true =>
    rw [hprogram] at hstep
    rw [hedges, (dispatches_links hstate (by simpa using hstep.symm)).size]
    rfl

end Machine

/-- Every compiled graph is closed and uniform, if there are at most `2 ^ 32` actions. -/
theorem plan_uniform (m : Machine) (hm : m.catalog.size ≤ Catalog.capacity) :
    ∃ plan, m.plan = .ok plan ∧ plan.Uniform m.initial := by
  have hclosed := m.closed_graph hm
  have hroot := m.graph_rootEdges
  refine ⟨_, m.plan_eq, ?_, fun i n hn => ?_, fun n hn => Machine.halting_iff hn, fun n hn hne => ?_, fun hne => ?_,
    fun n hn key target htarget => ?_, fun key target htarget => ?_, fun n hn n' hn' hstate => ?_, fun n hn hstate => ?_, ?_, ?_⟩
  · exact m.graph_length.trans Array.length_toList
  · refine ⟨hclosed.numbered i n hn, ?_⟩
    have hnode := m.graph_node? i
    rw [Graph.node?, hn] at hnode
    obtain ⟨a, ha, rfl⟩ := Option.map_eq_some_iff.1 hnode.symm
    exact ⟨a, (Array.getElem?_toList ..).symm.trans ha, rfl⟩
  · obtain ⟨hstate, -, hedges⟩ := Machine.exists_of_mem_nodes hn
    rw [hedges] at hne ⊢
    exact Machine.dispatches_of_ne_empty hstate hne
  · rw [hroot] at hne ⊢
    exact Machine.dispatches_of_ne_empty m.initial_mem_mentioned hne
  · exact hclosed.exists_node ((hclosed.follow_node hn key).trans htarget)
  · have hfollow : m.graph.follow none key = some target := htarget
    exact hclosed.exists_node hfollow
  · obtain ⟨-, -, hedges⟩ := Machine.exists_of_mem_nodes hn
    obtain ⟨-, -, hedges'⟩ := Machine.exists_of_mem_nodes hn'
    rw [hedges, hedges', hstate]
  · obtain ⟨-, -, hedges⟩ := Machine.exists_of_mem_nodes hn
    rw [hedges, hroot, hstate]
  · rw [hroot, Machine.links_eq_empty_iff m.initial_mem_mentioned, m.complete_isTerminal]
  · exact length_edges_of_nodes m.graph.nodes fun n hn => Machine.size_edges hn

/-- The graph of a machine with one rule is closed and uniform. -/
theorem plan_uniform_onesToZeros : onesToZeros.catalog.size ≤ Catalog.capacity ∧
    ∃ plan, onesToZeros.plan = .ok plan ∧ plan.Uniform onesToZeros.initial := by
  have hm : onesToZeros.catalog.size ≤ Catalog.capacity := by decide +kernel
  exact ⟨hm, plan_uniform onesToZeros hm⟩

end DispatchTree
