import DispatchTree.Proofs.Document.Reading
import DispatchTree.Proofs.Ignored
import DispatchTree.Proofs.Report.Width
import DispatchTree.Report

/-!
# Reading a JSON plan back

The JSON text of a plan loses nothing that it reports. Its document is read back from it, and the document is read by the names of
its fields (`PlanReport.ofDocument?`) as the counts of the plan, its fingerprint and one entry for each node in the order of their
numbers. An entry has the text of its action, which ends with six characters for the tracks whatever the state before them is, so
that the action can be told from it (`Action.ofText?`) and the entries together give the catalog (`plan_json_lossless`).
-/

namespace DispatchTree

/-! ## The text of an action -/

/-- The action that a text denotes: its last six characters are the operations of the tracks, and what comes before is the next
state. -/
def Action.ofText? (s : String) : Option Action :=
  match s.toList.reverse with
  | shift' :: write' :: _ :: shift :: write :: _ :: next => do
    let first := ⟨← Symbol.ofChar? write, ← Move.ofChar? shift⟩
    let second := ⟨← Symbol.ofChar? write', ← Move.ofChar? shift'⟩
    return ⟨String.ofList next.reverse, first, second⟩
  | _ => none

/-- An operation on a track is written with the letters of its symbol and its move. -/
theorem TrackOp.toList_text (op : TrackOp) : op.text.toList = [op.write.toChar, op.shift.toChar] := by
  simp [TrackOp.text, Symbol.text, Move.text]

/-- A state may look like the text of an action: only the end of the text counts. -/
theorem Action.ofText?_text (a : Action) : Action.ofText? a.text = some a := by
  have hreverse : a.text.toList.reverse = a.second.shift.toChar :: a.second.write.toChar :: ' ' :: a.first.shift.toChar ::
      a.first.write.toChar :: ' ' :: a.next.toList.reverse := by
    simp [Action.text, TrackOp.toList_text]
  simp [Action.ofText?, hreverse]

/-! ## The document of a plan -/

namespace Document

/-- The value of an entry of a table. -/
def field? (d : Document) (key : String) : Option Document :=
  match d with
  | .table entries => entries.lookup key
  | _ => none

/-- The text of a string. -/
def string? : Document → Option String
  | .string s => some s
  | _ => none

/-- The number of a whole number that is not negative. -/
def count? : Document → Option Nat
  | .integer n => n.toNat?
  | _ => none

/-- The items of a list. -/
def items? : Document → Option (List Document)
  | .list items => some items
  | _ => none

end Document

/-- What a JSON plan says of a node. -/
structure NodeReport where
  tag : String
  next : String
  kind : String
  outDegree : Nat
  action : String
  deriving DecidableEq, Repr

/-- What a JSON plan says. -/
structure PlanReport where
  initial : String
  states : Nat
  monoStates : Nat
  rootEdges : Nat
  fingerprint : String
  nodes : List NodeReport
  deriving DecidableEq, Repr

/-- Reads an entry of the list of nodes by the names of its fields. -/
def NodeReport.ofDocument? (d : Document) : Option NodeReport := do
  let tag ← (← d.field? "tag").string?
  let next ← (← d.field? "next").string?
  let kind ← (← d.field? "kind").string?
  let outDegree ← (← d.field? "out_degree").count?
  let action ← (← d.field? "action").string?
  return { tag, next, kind, outDegree, action }

/-- Reads a plan by the names of its fields. -/
def PlanReport.ofDocument? (d : Document) : Option PlanReport := do
  let initial ← (← d.field? "initial").string?
  let states ← (← d.field? "states").count?
  let monoStates ← (← d.field? "mono_states").count?
  let rootEdges ← (← d.field? "root_edges").count?
  let fingerprint ← (← d.field? "fingerprint").string?
  let nodes ← (← (← d.field? "nodes").items?).mapM NodeReport.ofDocument?
  return { initial, states, monoStates, rootEdges, fingerprint, nodes }

/-- A report that says of a plan what is true of it, with one entry for each number of its catalog. -/
structure PlanReport.Reports (r : PlanReport) (p : Plan) (fingerprint : String) : Prop where
  initial : r.initial = p.graph.initial
  states : r.states = p.table.states.size
  monoStates : r.monoStates = p.catalog.size
  rootEdges : r.rootEdges = p.graph.rootEdges.size
  fingerprint : r.fingerprint = fingerprint
  length : r.nodes.length = p.catalog.size
  node : ∀ (i : Nat) (a : Action), p.catalog.action? i = some a → ∃ n, p.graph.node? i = some n ∧ n.state = a.next ∧
    r.nodes[i]? = some ⟨tag i, n.state, n.program.kind, n.edges.size, a.text⟩

namespace PlanReport

/-- The entries have the texts of the actions in the order of their numbers. -/
theorem Reports.actions {r : PlanReport} {p : Plan} {fingerprint : String} (h : r.Reports p fingerprint) :
    r.nodes.map NodeReport.action = p.catalog.toList.map Action.text := by
  refine List.ext_getElem? fun i => ?_
  rw [List.getElem?_map, List.getElem?_map]
  cases ha : p.catalog.toList[i]? with
  | none =>
    have hlength : r.nodes.length = p.catalog.toList.length := h.length.trans Array.length_toList.symm
    rw [List.getElem?_eq_none (hlength ▸ List.getElem?_eq_none_iff.1 ha)]
    rfl
  | some a =>
    obtain ⟨n, -, -, he⟩ := h.node i a ((Array.getElem?_toList ..).symm.trans ha)
    rw [he]
    rfl

/-- The catalog is read off the entries. -/
theorem Reports.mapM_ofText? {r : PlanReport} {p : Plan} {fingerprint : String} (h : r.Reports p fingerprint) :
    (r.nodes.map NodeReport.action).mapM Action.ofText? = some p.catalog.toList := by
  rw [h.actions]
  induction p.catalog.toList with
  | nil => rfl
  | cons a as ih => rw [List.map_cons, List.mapM_cons, Action.ofText?_text, ih]; rfl

/-- Plans with the same entries have the same catalog. -/
theorem Reports.catalog_eq {r r' : PlanReport} {p p' : Plan} {fingerprint fingerprint' : String} (h : r.Reports p fingerprint)
    (h' : r'.Reports p' fingerprint') (heq : r'.nodes = r.nodes) : p'.catalog = p.catalog := by
  refine Catalog.eq_of_toList (Option.some.inj ?_)
  rw [← h.mapM_ofText?, ← h'.mapM_ofText?, heq]

end PlanReport

/-! ## The report of a plan -/

namespace Plan

/-- The entry of a node. -/
def nodeReport (p : Plan) (n : Node) : NodeReport :=
  ⟨tag n.id, n.state, n.program.kind, n.edges.size, (p.catalog.action? n.id).elim "" Action.text⟩

/-- The report of a plan. -/
def report (p : Plan) (fingerprint : String) : PlanReport where
  initial := p.graph.initial
  states := p.table.states.size
  monoStates := p.graph.nodes.length
  rootEdges := p.graph.rootEdges.size
  fingerprint := fingerprint
  nodes := p.graph.nodes.map p.nodeReport

/-- The entry of a node whose number has an action is read from its document. -/
theorem ofDocument?_nodeDocument {p : Plan} {n : Node} {a : Action} (ha : p.catalog.action? n.id = some a) :
    NodeReport.ofDocument? (Report.nodeDocument p n) = some (p.nodeReport n) := by
  rw [Report.nodeDocument, nodeReport, ha]
  rfl

/-- All nodes are read back, if each of them is the node of an action. -/
theorem mapM_ofDocument? {p : Plan} {nodes : List Node} (h : ∀ n ∈ nodes, ∃ a, p.catalog.action? n.id = some a) :
    (nodes.map (Report.nodeDocument p)).mapM NodeReport.ofDocument? = some (nodes.map p.nodeReport) := by
  induction nodes with
  | nil => rfl
  | cons n nodes ih =>
    obtain ⟨a, ha⟩ := h n List.mem_cons_self
    rw [List.map_cons, List.mapM_cons, ofDocument?_nodeDocument ha, ih fun n' hn' => h n' (List.mem_cons_of_mem n hn')]
    rfl

/-- The report of a plan whose nodes all have actions is read from its document. -/
theorem ofDocument?_planDocument {p : Plan} (h : ∀ n ∈ p.graph.nodes, ∃ a, p.catalog.action? n.id = some a) (fingerprint : String) :
    PlanReport.ofDocument? (Report.planDocument p fingerprint) = some (p.report fingerprint) := by
  -- all other fields are found by evaluation
  show ((p.graph.nodes.map (Report.nodeDocument p)).mapM NodeReport.ofDocument?).bind _ = _
  rw [mapM_ofDocument? h]
  rfl

/-- The report of a plan is true of it if its nodes stand in the order of its catalog. -/
theorem reports_report (p : Plan) (hlength : p.graph.nodes.length = p.catalog.size)
    (hnode : ∀ i a, p.catalog.action? i = some a → ∃ n, p.graph.node? i = some n ∧ n.id = i ∧ n.state = a.next)
    (fingerprint : String) : (p.report fingerprint).Reports p fingerprint := by
  refine ⟨rfl, rfl, hlength, rfl, rfl, (List.length_map _).trans hlength, fun i a ha => ?_⟩
  obtain ⟨n, hn, hid, hstate⟩ := hnode i a ha
  refine ⟨n, hn, hstate, ?_⟩
  rw [Graph.node?] at hn
  rw [report, List.getElem?_map, hn, Option.map_some, nodeReport, hid, ha]
  rfl

/-- A document of a node with few edges is read back as it is. -/
theorem exact_nodeDocument (p : Plan) {n : Node} (hn : n.edges.size ≤ 18) : (Report.nodeDocument p n).Exact := by
  have hmax : Json.maxSignificand = 18446744073709551615 := by decide
  cases ha : p.catalog.action? n.id with
  | none => simp [Report.nodeDocument, ha, Document.Exact, Document.EntriesExact]; omega
  | some a => simp [Report.nodeDocument, ha, Document.Exact, Document.EntriesExact]; omega

/-- The document of a plan whose counts are words of 64 bits is read back as it is. -/
theorem exact_planDocument {p : Plan} (hstates : p.table.states.size ≤ Json.maxSignificand)
    (hnodes : p.graph.nodes.length ≤ Json.maxSignificand) (hedges : ∀ n ∈ p.graph.nodes, n.edges.size ≤ 18)
    (hroot : p.graph.rootEdges.size ≤ 18) (fingerprint : String) : (Report.planDocument p fingerprint).Exact := by
  have hmax : Json.maxSignificand = 18446744073709551615 := by decide
  have hitems : Document.ItemsExact (p.graph.nodes.map (Report.nodeDocument p)) := by
    refine (Document.itemsExact_iff _).2 fun d hd => ?_
    obtain ⟨n, hn, rfl⟩ := List.mem_map.1 hd
    exact p.exact_nodeDocument (hedges n hn)
  simp [Report.planDocument, Document.Exact, Document.EntriesExact, hitems]
  omega

theorem depth_nodeDocument (p : Plan) (n : Node) : (Report.nodeDocument p n).depth = 1 := by
  cases ha : p.catalog.action? n.id <;> simp [Report.nodeDocument, ha, Document.depth, Document.entriesDepth]

/-- A report is a table with lists of tables in it. -/
theorem depth_planDocument_le (p : Plan) (fingerprint : String) : (Report.planDocument p fingerprint).depth ≤ 3 := by
  have hitems : Document.itemsDepth (p.graph.nodes.map (Report.nodeDocument p)) ≤ 1 := by
    refine Document.itemsDepth_le fun d hd => ?_
    obtain ⟨n, -, rfl⟩ := List.mem_map.1 hd
    exact (p.depth_nodeDocument n).le
  simp [Report.planDocument, Document.depth, Document.entriesDepth]
  omega

end Plan

/-! ## The plan of a machine -/

namespace Machine

variable {m : Machine} {p : Plan}

/-- The table of a plan is the completed machine. -/
theorem table_of_plan (h : m.plan = .ok p) : p.table = m.complete := by
  rw [m.plan_eq] at h
  cases h
  rfl

/-- The catalog of a plan is the catalog of the machine. -/
theorem catalog_of_plan (h : m.plan = .ok p) : p.catalog = m.catalog := by
  rw [m.plan_eq] at h
  cases h
  rfl

/-- A state has at most eighteen edges. -/
theorem size_links_le {state : String} (h : state ∈ m.mentioned) : (m.links state).size ≤ 18 := by
  cases hstops : m.stops state with
  | true =>
    rw [(links_eq_empty_iff h).2 hstops]
    exact Nat.zero_le 18
  | false => exact (dispatches_links h hstops).size.le

/-- A node has at most as many edges as there are keys. -/
theorem size_edges_le (h : m.plan = .ok p) {n : Node} (hn : n ∈ p.graph.nodes) : n.edges.size ≤ 18 := by
  rw [graph_of_plan h] at hn
  obtain ⟨hstate, -, hedges⟩ := exists_of_mem_nodes hn
  rw [hedges]
  exact size_links_le hstate

/-- The root has at most as many edges as there are keys. -/
theorem size_rootEdges_le (h : m.plan = .ok p) : p.graph.rootEdges.size ≤ 18 := by
  rw [graph_of_plan h, m.graph_rootEdges]
  exact size_links_le m.initial_mem_mentioned

/-- There is a node for each action. -/
theorem length_nodes_of_plan (h : m.plan = .ok p) : p.graph.nodes.length = p.catalog.size := by
  rw [graph_of_plan h, catalog_of_plan h, m.graph_length]
  exact Array.length_toList

/-- The number of a node is that of an action. -/
theorem exists_action_of_node (hm : m.catalog.size ≤ Catalog.capacity) (h : m.plan = .ok p) {n : Node} (hn : n ∈ p.graph.nodes) :
    ∃ a, p.catalog.action? n.id = some a := by
  rw [graph_of_plan h] at hn
  obtain ⟨i, hi⟩ := List.mem_iff_getElem?.1 hn
  have hnode := m.graph_node? i
  rw [Graph.node?, hi] at hnode
  obtain ⟨a, ha, rfl⟩ := Option.map_eq_some_iff.1 hnode.symm
  rw [catalog_of_plan h, nodeOf_id hm (List.getElem?_eq_some_iff.1 ha).1]
  exact ⟨a, (Array.getElem?_toList ..).symm.trans ha⟩

/-- The node of a number enters the state of its action. -/
theorem exists_node_of_action (hm : m.catalog.size ≤ Catalog.capacity) (h : m.plan = .ok p) {i : Nat} {a : Action}
    (ha : p.catalog.action? i = some a) :
    ∃ n, p.graph.node? i = some n ∧ n.id = i ∧ n.state = a.next := by
  rw [catalog_of_plan h] at ha
  have hlist : m.catalog.toList[i]? = some a := (Array.getElem?_toList ..).trans ha
  refine ⟨m.nodeOf i a, ?_, nodeOf_id hm (List.getElem?_eq_some_iff.1 hlist).1 a, m.nodeOf_state i a⟩
  rw [graph_of_plan h, m.graph_node?, hlist, Option.map_some]

end Machine

/-- The JSON text of a plan says what is true of the plan, if there are at most `2 ^ 32` actions, with an entry for each node in the
order of their numbers. The action of an entry is recovered from its text, and plans with the same entries have the same catalog. The
reader gives the document back if the count of states is a word of 64 bits. -/
theorem plan_json_lossless (m : Machine) (hm : m.catalog.size ≤ Catalog.capacity) (fingerprint : String) :
    ∃ p d r, m.plan = .ok p ∧ Json.Spaced (Json.tokens d) (Report.planJson p fingerprint).toList ∧
      (p.table.states.size ≤ Json.maxSignificand → Json.parse? (Report.planJson p fingerprint) = some d) ∧
      PlanReport.ofDocument? d = some r ∧ r.Reports p fingerprint ∧
      (r.nodes.map NodeReport.action).mapM Action.ofText? = some p.catalog.toList ∧
      ∀ (p' : Plan) (fingerprint' : String) (r' : PlanReport), r'.Reports p' fingerprint' → r'.nodes = r.nodes →
        p'.catalog = p.catalog := by
  obtain ⟨p, h⟩ := m.exists_plan_eq
  have hlength := Machine.length_nodes_of_plan h
  have htext : Json.Spaced (Json.tokens (Report.planDocument p fingerprint)) (Report.planJson p fingerprint).toList :=
    Json.spaced_prettyAt 0 _
  have hreports := p.reports_report hlength (fun i a ha => Machine.exists_node_of_action hm h ha) fingerprint
  refine ⟨p, Report.planDocument p fingerprint, p.report fingerprint, h, htext, fun hstates => ?_,
    Plan.ofDocument?_planDocument (fun n hn => Machine.exists_action_of_node hm h hn) fingerprint, hreports, hreports.mapM_ofText?,
    fun p' fingerprint' r' h' heq => hreports.catalog_eq h' heq⟩
  have hnodes : p.graph.nodes.length ≤ Json.maxSignificand := by
    rw [hlength, Machine.catalog_of_plan h]
    exact Nat.le_trans hm (by decide)
  have hexact := Plan.exact_planDocument hstates hnodes (fun n hn => Machine.size_edges_le h hn)
    (Machine.size_rootEdges_le h) fingerprint
  exact Json.parse?_of_spaced hexact ((p.depth_planDocument_le fingerprint).trans (by decide)) htext

/-- The report of a machine that leads to a state whose name needs escapes and ends like the text of an action. -/
theorem plan_json_lossless_escaped :
    let m := Machine.leadingTo "a \"b\"\n\x01é 0R #N"
    m.catalog.size = 2 ∧ ∃ p d r, m.plan = .ok p ∧ p.table.states.size = 3 ∧ Json.parse? (Report.planJson p "") = some d ∧
      PlanReport.ofDocument? d = some r ∧ r.Reports p "" ∧
      (r.nodes.map NodeReport.action).mapM Action.ofText? = some p.catalog.toList := by
  intro m
  have hsize : m.catalog.size = 2 := by decide
  obtain ⟨p, d, r, h, -, hparse, hr, hreports, hactions, -⟩ := plan_json_lossless m (by rw [hsize]; decide) ""
  have hstates : p.table.states.size = 3 := by
    rw [Machine.table_of_plan h]
    decide
  exact ⟨hsize, p, d, r, h, hstates, hparse (by rw [hstates]; decide), hr, hreports, hactions⟩

end DispatchTree
