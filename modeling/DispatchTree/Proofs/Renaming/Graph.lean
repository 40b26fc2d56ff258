import Mathlib.Data.List.Nodup
import Mathlib.Data.Set.Function
import DispatchTree.Proofs.Linking
import DispatchTree.Proofs.Renaming.Machine

/-!
# Renaming the states of a graph

The graph of a renamed machine is the graph of the machine with other numbers: the node of an action goes to the node of the renamed
action (`Renames.renumbers`). Both machines have as many actions, so that there are numbers enough for the renamed machine if there
are for the other one (`Renames.numbered`).
-/

namespace DispatchTree

namespace Graph

/-- A graph is another one with other numbers: a bijection of the numbers keeps programs, and takes edges to edges under the same
keys. -/
structure Renumbers (g : Graph) (number : Nat → Nat) (g' : Graph) : Prop where
  bijective : Set.BijOn number {i | i < g.nodes.length} {i | i < g'.nodes.length}
  nodes : ∀ i n, g.node? i = some n → ∃ n', g'.node? (number i) = some n' ∧ n'.program = n.program ∧
    ∀ key : String, n'.edges[key]? = n.edges[key]?.map number
  rootEdges : ∀ key : String, g'.rootEdges[key]? = g.rootEdges[key]?.map number

end Graph

namespace Machine

variable {m : Machine} {r : String → String}

/-! ## Numbered actions -/

/-- The actions that have a number are those that the machine takes in a state it mentions. -/
theorem isSome_catalog_get?_iff (m : Machine) (a : Action) :
    (m.catalog.get? a).isSome ↔ ∃ s ∈ m.mentioned, ∃ p, m.step? s p = some a := by
  refine (Catalog.isSome_get?_ofTable m.complete a).trans ⟨?_, ?_⟩
  · rintro ⟨s, p, hlookup⟩
    have hs : s ∈ m.mentioned := by
      by_contra hs
      have hrow : s ∉ m.rowStates := fun h => hs ((m.mem_rowStates s).1 h).1
      rw [Table.lookup, m.complete_rows_getElem?, if_neg hrow] at hlookup
      cases hlookup
    rw [m.complete_lookup hs] at hlookup
    exact ⟨s, hs, p, hlookup⟩
  · rintro ⟨s, hs, p, hstep⟩
    exact ⟨s, p, (m.complete_lookup hs p).trans hstep⟩

/-- An action with a number enters a state that is mentioned. -/
theorem next_mem_of_catalog {a : Action} (h : (m.catalog.get? a).isSome) : a.next ∈ m.mentioned := by
  obtain ⟨s, -, p, hstep⟩ := (m.isSome_catalog_get?_iff a).1 h
  exact m.next_mem_mentioned hstep

/-- Renaming keeps the numbered actions apart. -/
theorem Renames.rename_injective (h : m.Renames r) {a b : Action} (ha : (m.catalog.get? a).isSome)
    (hb : (m.catalog.get? b).isSome) (hab : a.rename r = b.rename r) : a = b := by
  obtain ⟨hnext, hfirst, hsecond⟩ := Action.mk.inj hab
  have hstate := h.injective _ (next_mem_of_catalog ha) _ (next_mem_of_catalog hb) hnext
  cases a
  cases b
  exact Action.mk.injEq .. ▸ ⟨hstate, hfirst, hsecond⟩

/-- The actions of the renamed machine that have a number are the renamed ones. -/
theorem Renames.isSome_get?_iff (h : m.Renames r) {b : Action} :
    ((m.rename r).catalog.get? b).isSome ↔ ∃ a, (m.catalog.get? a).isSome ∧ b = a.rename r := by
  rw [isSome_catalog_get?_iff]
  constructor
  · rintro ⟨k, hk, p, hstep⟩
    obtain ⟨s, hs, rfl⟩ := h.mem_mentioned_rename.1 hk
    rw [h.step?_rename hs, Option.map_eq_some_iff] at hstep
    obtain ⟨a, ha, rfl⟩ := hstep
    exact ⟨a, (m.isSome_catalog_get?_iff a).2 ⟨s, hs, p, ha⟩, rfl⟩
  · rintro ⟨a, ha, rfl⟩
    obtain ⟨s, hs, p, hstep⟩ := (m.isSome_catalog_get?_iff a).1 ha
    refine ⟨r s, h.mem_mentioned_rename.2 ⟨s, hs, rfl⟩, p, ?_⟩
    rw [h.step?_rename hs, hstep]
    rfl

/-- A renamed machine has as many actions as before. -/
theorem Renames.size_catalog (h : m.Renames r) : (m.rename r).catalog.size = m.catalog.size := by
  have hinjective : ∀ a ∈ m.catalog.toList, ∀ b ∈ m.catalog.toList, a.rename r = b.rename r → a = b :=
    fun a ha b hb => h.rename_injective (Catalog.mem_toList.1 ha) (Catalog.mem_toList.1 hb)
  have hperm : (m.rename r).catalog.toList.Perm (m.catalog.toList.map (Action.rename r)) := by
    rw [List.perm_ext_iff_of_nodup (Catalog.nodup_toList _) (List.Nodup.map_on hinjective m.catalog.nodup_toList)]
    intro b
    rw [Catalog.mem_toList, h.isSome_get?_iff, List.mem_map]
    simp only [Catalog.mem_toList, eq_comm]
  rw [← Catalog.length_toList, hperm.length_eq, List.length_map, Catalog.length_toList]

/-- If there are numbers enough for a machine, there are for the renamed one. -/
theorem Renames.numbered (h : m.Renames r) (hm : m.catalog.size ≤ Catalog.capacity) :
    (m.rename r).catalog.size ≤ Catalog.capacity := by
  rw [h.size_catalog]
  exact hm

/-- The number that the action of a number has once it is renamed. -/
def renumber (m : Machine) (r : String → String) (i : Nat) : Nat :=
  (m.catalog.toList[i]?.bind fun a => (m.rename r).catalog.get? (a.rename r)).getD 0

/-- A renamed action has the new number of the action. -/
theorem Renames.get?_rename (h : m.Renames r) (hm : m.catalog.size ≤ Catalog.capacity) {a : Action} {i : Nat}
    (ha : m.catalog.get? a = some i) :
    (m.rename r).catalog.get? (a.rename r) = some (m.renumber r i) := by
  have hsome := h.isSome_get?_iff.2 ⟨a, by rw [ha]; rfl, rfl⟩
  obtain ⟨j, hj⟩ := Option.isSome_iff_exists.1 hsome
  have hi := (Catalog.get?_eq_some_iff hm a i).1 ha
  rw [renumber, hi, Option.bind_some, hj]
  rfl

/-! ## The graph -/

/-- The edges of a renamed state are those of the state with the new numbers. -/
theorem Renames.links_rename (h : m.Renames r) (hm : m.catalog.size ≤ Catalog.capacity) {s : String} (hs : s ∈ m.mentioned) (key : String) :
    ((m.rename r).links (r s))[key]? = (m.links s)[key]?.map (m.renumber r) := by
  rw [links_getElem? _ (h.mem_mentioned_rename.2 ⟨s, hs, rfl⟩), m.links_getElem? hs]
  cases SymbolPair.ofKey? key with
  | none => rfl
  | some p =>
    simp only [Option.bind_some]
    rw [h.step?_rename hs]
    cases hstep : m.step? s p with
    | none => rfl
    | some a =>
      obtain ⟨i, hi⟩ := Option.isSome_iff_exists.1 ((m.isSome_catalog_get?_iff a).2 ⟨s, hs, p, hstep⟩)
      simp only [Option.map_some, Option.bind_some]
      rw [h.get?_rename hm hi, hi]
      rfl

/-- A renamed action has the program of the action. -/
theorem Renames.program_rename (h : m.Renames r) {a : Action} (ha : (m.catalog.get? a).isSome) :
    Graph.programOf (m.rename r).complete (a.rename r) = Graph.programOf m.complete a := by
  have hmessage := h.message?_rename (next_mem_of_catalog ha)
  have hnext : (a.rename r).next = r a.next := rfl
  rw [programOf_eq, programOf_eq, hnext, hmessage]
  rfl

/-- There is a node for each action. -/
theorem graph_length (m : Machine) : m.graph.nodes.length = m.catalog.toList.length := by
  rw [graph, List.length_mapIdx]

/-- The new numbers are those of the renamed graph, each of them once. -/
theorem Renames.bijOn_renumber (h : m.Renames r) (hm : m.catalog.size ≤ Catalog.capacity) :
    Set.BijOn (m.renumber r) {i | i < m.graph.nodes.length} {i | i < (m.rename r).graph.nodes.length} := by
  have hm' : (m.rename r).catalog.size ≤ Catalog.capacity := h.numbered hm
  rw [graph_length, graph_length]
  -- the action of a number, and the number of the renamed action
  have hnumber : ∀ i < m.catalog.toList.length, ∃ a, m.catalog.get? a = some i ∧
      (m.rename r).catalog.get? (a.rename r) = some (m.renumber r i) := by
    intro i hi
    have ha := (Catalog.get?_eq_some_iff hm _ i).2 (List.getElem?_eq_getElem hi)
    exact ⟨_, ha, h.get?_rename hm ha⟩
  refine ⟨?_, ?_, ?_⟩
  · intro i hi
    obtain ⟨a, -, hrename⟩ := hnumber i hi
    exact (List.getElem?_eq_some_iff.1 ((Catalog.get?_eq_some_iff hm' _ _).1 hrename)).1
  · intro i hi j hj hij
    obtain ⟨a, ha, ha'⟩ := hnumber i hi
    obtain ⟨b, hb, hb'⟩ := hnumber j hj
    rw [hij] at ha'
    have hab : a.rename r = b.rename r := by
      have hact := (Catalog.get?_eq_some_iff hm' _ _).1 ha'
      rw [(Catalog.get?_eq_some_iff hm' _ _).1 hb'] at hact
      exact (Option.some.inj hact).symm
    obtain rfl := h.rename_injective (by rw [ha]; rfl) (by rw [hb]; rfl) hab
    exact Option.some.inj (ha.symm.trans hb)
  · intro j hj
    have hb := (Catalog.get?_eq_some_iff hm' _ j).2 (List.getElem?_eq_getElem hj)
    obtain ⟨a, ha, hab⟩ := h.isSome_get?_iff.1 (by rw [hb]; rfl)
    obtain ⟨i, hi⟩ := Option.isSome_iff_exists.1 ha
    refine ⟨i, (List.getElem?_eq_some_iff.1 ((Catalog.get?_eq_some_iff hm a i).1 hi)).1, ?_⟩
    rw [hab, h.get?_rename hm hi] at hb
    exact Option.some.inj hb

/-- The graph of the renamed machine is the graph of the machine with other numbers. -/
theorem Renames.renumbers (h : m.Renames r) (hm : m.catalog.size ≤ Catalog.capacity) :
    m.graph.Renumbers (m.renumber r) (m.rename r).graph := by
  refine ⟨h.bijOn_renumber hm, fun i n hn => ?_, fun key => ?_⟩
  · rw [m.graph_node?, Option.map_eq_some_iff] at hn
    obtain ⟨a, ha, rfl⟩ := hn
    have hi := (Catalog.get?_eq_some_iff hm a i).2 ha
    have hsome : (m.catalog.get? a).isSome := by rw [hi]; rfl
    refine ⟨(m.rename r).nodeOf (m.renumber r i) (a.rename r), ?_, h.program_rename hsome, fun key => ?_⟩
    · rw [graph_node?, (Catalog.get?_eq_some_iff (h.numbered hm) _ _).1 (h.get?_rename hm hi)]
      rfl
    · rw [nodeOf_edges, nodeOf_edges]
      exact h.links_rename hm (next_mem_of_catalog hsome) key
  · rw [graph_rootEdges, graph_rootEdges]
    exact h.links_rename hm m.initial_mem_mentioned key

end Machine

end DispatchTree
