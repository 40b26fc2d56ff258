import Mathlib.Data.List.Forall2
import DispatchTree.Proofs.Linking

/-!
# A compiled machine runs as the machine does

Following dispatch keys through the graph of a machine is running the machine: `Standing` relates a position in the graph to the
state the machine is in, the root and the initial state stand together (`standing_root`), and a key of a pair leads to the node of
the action taken on that pair (`follow_key`), which stands with the state entered (`standing_node`). From these, by induction on
the pairs read, the nodes visited are those of the actions taken (`visits_eq`). All this takes a number of its own for every action:
there may be as many actions as there are words of 32 bits, and no more.
-/

namespace DispatchTree

/-! ## The two runs -/

/-- The actions a machine takes from a state on the pairs it reads, until it stops. -/
def Machine.actionsFrom (m : Machine) : String → List SymbolPair → List Action
  | _, [] => []
  | state, p :: ps =>
    match m.step? state p with
    | none => []
    | some a => a :: m.actionsFrom a.next ps

/-- The state after a list of actions that were taken from a state. -/
def stateAfter (state : String) (actions : List Action) : String := actions.foldl (fun _ a => a.next) state

/-- The nodes visited when keys are followed one after the other from a position, until one leads nowhere. -/
def Graph.visits (g : Graph) : Option Nat → List String → List Nat
  | _, [] => []
  | position, key :: keys =>
    match g.follow position key with
    | none => []
    | some id => id :: g.visits (some id) keys

/-- The position after a list of nodes was visited from a position. -/
def positionAfter (position : Option Nat) (ids : List Nat) : Option Nat := ids.foldl (fun _ id => some id) position

/-- A list of keys that spells a list of pairs: each pair by one of its two keys. -/
abbrev Spells (pairs : List SymbolPair) (keys : List String) : Prop :=
  List.Forall₂ (fun p key => key ∈ p.dispatchKeys) pairs keys

/-! ## Positions and states -/

/-- A position of the graph stands with a state of the machine: its edges are those of the state. -/
def Standing (m : Machine) (position : Option Nat) (state : String) : Prop :=
  m.graph.edgesAt position = some (m.links state) ∧ state ∈ m.mentioned

/-- The root stands with the initial state. -/
theorem standing_root (m : Machine) : Standing m none m.initial :=
  ⟨by rw [Graph.edgesAt, m.graph_rootEdges], m.initial_mem_mentioned⟩

/-- The node of an action that the machine takes. -/
theorem node_of_step {m : Machine} (hm : m.catalog.size ≤ Catalog.capacity) {state : String} {p : SymbolPair} {a : Action}
    (h : state ∈ m.mentioned) (hs : m.step? state p = some a) :
    ∃ id, m.catalog.get? a = some id ∧ m.graph.node? id = some (m.nodeOf id a) := by
  have hsome := m.isSome_catalog_get? state p a (by rw [m.complete_lookup h, hs])
  obtain ⟨id, hid⟩ := Option.isSome_iff_exists.1 hsome
  refine ⟨id, hid, ?_⟩
  rw [m.graph_node?, (Catalog.get?_eq_some_iff hm a id).1 hid]
  rfl

/-- The node of an action stands with the state that the action enters. -/
theorem standing_node (m : Machine) {state : String} {p : SymbolPair} {a : Action} {id : Nat}
    (hs : m.step? state p = some a) (hn : m.graph.node? id = some (m.nodeOf id a)) : Standing m (some id) a.next := by
  refine ⟨?_, m.next_mem_mentioned hs⟩
  rw [Graph.edgesAt, hn, Option.map_some, m.nodeOf_edges]

/-- Where a key leads from a position that stands with a state: to the number of the action taken on the key's pair. -/
theorem follow_eq {m : Machine} {position : Option Nat} {state : String} (h : Standing m position state) (key : String) :
    m.graph.follow position key = (SymbolPair.ofKey? key).bind fun p => (m.step? state p).bind m.catalog.get? := by
  unfold Graph.follow
  rw [h.1, Option.bind_some, m.links_getElem? h.2]

/-- A key of a pair leads to the number of the action taken on that pair. -/
theorem follow_key {m : Machine} {position : Option Nat} {state : String} (h : Standing m position state)
    {p : SymbolPair} {key : String} (hk : key ∈ p.dispatchKeys) :
    m.graph.follow position key = (m.step? state p).bind m.catalog.get? := by
  rw [follow_eq h, SymbolPair.ofKey?_of_mem hk, Option.bind_some]

/-- A key leads nowhere exactly where the machine has stopped. -/
theorem follow_eq_none_iff {m : Machine} {position : Option Nat} {state : String} (h : Standing m position state)
    {p : SymbolPair} {key : String} (hk : key ∈ p.dispatchKeys) :
    m.graph.follow position key = none ↔ m.step? state p = none := by
  rw [follow_key h hk]
  cases hs : m.step? state p with
  | none => simp
  | some a =>
    have hsome := m.isSome_catalog_get? state p a (by rw [m.complete_lookup h.2, hs])
    rw [Option.bind_some, ← Option.not_isSome_iff_eq_none]
    simp [hsome]

/-- A text that is no dispatch key leads nowhere, from whatever position. -/
theorem follow_of_no_key (m : Machine) (position : Option Nat) {key : String} (h : ∀ p : SymbolPair, key ∉ p.dispatchKeys) :
    m.graph.follow position key = none := by
  have hlinks : ∀ state, (m.links state)[key]? = none := by
    intro state
    unfold Machine.links
    rw [linksOf_getElem? _ _ state (m.isSome_catalog_get? state), (SymbolPair.ofKey?_eq_none_iff key).2 h, Option.bind_none]
  unfold Graph.follow
  cases position with
  | none =>
    rw [Graph.edgesAt, m.graph_rootEdges, Option.bind_some, hlinks]
  | some id =>
    rw [Graph.edgesAt, m.graph_node?]
    cases m.catalog.toList[id]? with
    | none => rfl
    | some a => rw [Option.map_some, Option.map_some, m.nodeOf_edges, Option.bind_some, hlinks]

/-! ## Runs -/

/-- From a position and a state that stand together, the nodes visited are those of the actions taken, and position and state stand
together again in the end. -/
theorem visits_eq {m : Machine} (hm : m.catalog.size ≤ Catalog.capacity) {pairs : List SymbolPair} {keys : List String}
    (hk : Spells pairs keys) :
    ∀ (position : Option Nat) (state : String), Standing m position state →
      (m.graph.visits position keys).map some = (m.actionsFrom state pairs).map m.catalog.get? ∧
      Standing m (positionAfter position (m.graph.visits position keys)) (stateAfter state (m.actionsFrom state pairs)) := by
  induction hk with
  | nil => intro position state h; exact ⟨rfl, h⟩
  | @cons p key ps ks hkey _ ih =>
    intro position state h
    simp only [Machine.actionsFrom, Graph.visits, follow_key h hkey]
    cases hs : m.step? state p with
    | none => exact ⟨rfl, h⟩
    | some a =>
      obtain ⟨id, hid, hn⟩ := node_of_step hm h.2 hs
      obtain ⟨hv, hst⟩ := ih (some id) a.next (standing_node m hs hn)
      simp only [Option.bind_some, hid, List.map_cons]
      exact ⟨by rw [hv], hst⟩

/-- Every action of a run has a node, and the node shows what the action does. -/
theorem node_of_mem_actionsFrom {m : Machine} (hm : m.catalog.size ≤ Catalog.capacity) (a : Action) :
    ∀ (pairs : List SymbolPair) (state : String), state ∈ m.mentioned → a ∈ m.actionsFrom state pairs →
    ∃ id, m.catalog.get? a = some id ∧ m.graph.node? id = some (m.nodeOf id a) := by
  intro pairs
  induction pairs with
  | nil => intro state _ h; simp [Machine.actionsFrom] at h
  | cons p ps ih =>
    intro state hstate h
    simp only [Machine.actionsFrom] at h
    cases hs : m.step? state p with
    | none => simp [hs] at h
    | some b =>
      rw [hs] at h
      rcases List.mem_cons.1 h with rfl | h
      · exact node_of_step hm hstate hs
      · exact ih b.next (m.next_mem_mentioned hs) h

/-- The compiled machine simulates the machine, if there are at most `2 ^ 32` actions. Compiling succeeds; whatever pairs are read,
and whichever of its two keys each of them is reported by, the nodes visited from the root are those of the actions the machine
takes from its initial state; the node of an action is in the state entered and shows that state's message if the machine stops
there, and the action's operations if not; a key leads nowhere exactly where the machine has stopped, and a text that is no key
leads nowhere from any position. -/
theorem graph_simulates_machine (m : Machine) (hm : m.catalog.size ≤ Catalog.capacity) :
    ∃ plan, m.plan = .ok plan ∧
      (∀ (pairs : List SymbolPair) (keys : List String), Spells pairs keys →
        (plan.graph.visits none keys).map some = (m.actionsFrom m.initial pairs).map plan.catalog.get? ∧
        (∀ a ∈ m.actionsFrom m.initial pairs, ∃ id node, plan.catalog.get? a = some id ∧ plan.graph.node? id = some node ∧
          node.id = id ∧ node.state = a.next ∧
          node.program = match m.message? a.next with
            | some message => .halt message
            | none => .step a.first a.second) ∧
        (∀ (p : SymbolPair), ∀ key ∈ p.dispatchKeys,
          (plan.graph.follow (positionAfter none (plan.graph.visits none keys)) key = none ↔
            m.step? (stateAfter m.initial (m.actionsFrom m.initial pairs)) p = none))) ∧
      (∀ (position : Option Nat) (key : String), (∀ p : SymbolPair, key ∉ p.dispatchKeys) →
        plan.graph.follow position key = none) := by
  refine ⟨_, m.plan_eq, fun pairs keys hk => ?_, fun position key h => follow_of_no_key m position h⟩
  obtain ⟨hv, hst⟩ := visits_eq hm hk none m.initial (standing_root m)
  refine ⟨hv, fun a ha => ?_, fun p key hkey => follow_eq_none_iff hst hkey⟩
  obtain ⟨id, hid, hn⟩ := node_of_mem_actionsFrom hm a pairs m.initial m.initial_mem_mentioned ha
  have hplace := (List.getElem?_eq_some_iff.1 ((Catalog.get?_eq_some_iff hm a id).1 hid)).1
  exact ⟨id, m.nodeOf id a, hid, hn, Machine.nodeOf_id hm hplace a, rfl, m.programOf_eq a⟩

/-- A machine with one rule: on two ones it writes two zeros and stops. -/
def onesToZeros : Machine :=
  ((Machine.new "A").halt "B" "done").rule "A" ⟨.one, .one⟩ ⟨"B", ⟨.zero, .stay⟩, ⟨.zero, .stay⟩⟩

/-- Two ones lead, by either key, to a node that shows the message of the terminal state, where the run ends; and the name of a
file is no key. -/
theorem graph_simulates_onesToZeros : onesToZeros.catalog.size ≤ Catalog.capacity ∧
    ∃ plan, onesToZeros.plan = .ok plan ∧ Spells [⟨.one, .one⟩] [SymbolPair.reverseKey ⟨.one, .one⟩] ∧
      (plan.graph.visits none [SymbolPair.reverseKey ⟨.one, .one⟩]).map some =
        (onesToZeros.actionsFrom "A" [⟨.one, .one⟩]).map plan.catalog.get? ∧
      (∃ id node, plan.graph.node? id = some node ∧ node.state = "B" ∧ node.program = .halt "done") ∧
      plan.graph.follow none "init" = none := by
  have hm : onesToZeros.catalog.size ≤ Catalog.capacity := by decide +kernel
  obtain ⟨plan, hp, hrun, hno⟩ := graph_simulates_machine onesToZeros hm
  have hspell : Spells [⟨.one, .one⟩] [SymbolPair.reverseKey ⟨.one, .one⟩] := by simp [SymbolPair.dispatchKeys]
  obtain ⟨hv, hnode, _⟩ := hrun _ _ hspell
  obtain ⟨id, node, _, hn, _, hst, hprog⟩ := hnode ⟨"B", ⟨.zero, .stay⟩, ⟨.zero, .stay⟩⟩ (by decide +kernel)
  exact ⟨hm, plan, hp, hspell, hv, ⟨id, node, hn, hst, hprog⟩, hno none "init" ((SymbolPair.ofKey?_eq_none_iff "init").1 (by decide))⟩

end DispatchTree
