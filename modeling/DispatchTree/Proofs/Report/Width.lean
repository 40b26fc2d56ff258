import DispatchTree.Report
import DispatchTree.Proofs.Primality.Rules
import DispatchTree.Proofs.Screen.Drawing
import DispatchTree.Proofs.Sighting
import DispatchTree.Proofs.Uniformity

/-!
# How wide the table of a plan is

The column of states is as wide as the longest state in bytes, and at least four (`stateWidth_le_iff`). A state that a node enters
is the sink or the state of some rule (`exists_rule_of_mem_catalog`), so that a machine given by its rules has a narrow column if
the states of its rules are short (`stateWidth_addRules_le`). The table of the bundled machine can always be printed
(`stateWidth_machine_le`).
-/

namespace DispatchTree

/-- A text has no more characters than bytes. -/
theorem length_le_utf8ByteSize (s : String) : s.length ≤ s.utf8ByteSize := by
  have hchars : ∀ cs : List Char, cs.length ≤ (String.ofList cs).utf8ByteSize := by
    intro cs
    induction cs with
    | nil => exact Nat.zero_le _
    | cons c cs ih =>
      have hcons : String.ofList (c :: cs) = String.singleton c ++ String.ofList cs := by
        rw [← String.toList_inj]
        simp
      have hpos := c.utf8Size_pos
      rw [hcons, String.utf8ByteSize_append, String.utf8ByteSize_singleton, List.length_cons]
      omega
  have h := hchars s.toList
  rwa [String.ofList_toList, String.length_toList] at h

namespace Report

/-- The greatest member of a list is bounded if all members are. -/
theorem foldl_max_le_iff (l : List Nat) (n : Nat) : ∀ start, l.foldl max start ≤ n ↔ start ≤ n ∧ ∀ x ∈ l, x ≤ n := by
  induction l with
  | nil => simp
  | cons x l ih =>
    intro start
    rw [List.foldl_cons, ih, Nat.max_le, List.forall_mem_cons, and_assoc]

/-- The column of states is the narrowest one that has room for every state, counted in bytes, and for its heading. -/
theorem stateWidth_le_iff (g : Graph) (n : Nat) :
    stateWidth g ≤ n ↔ 4 ≤ n ∧ ∀ node ∈ g.nodes, node.state.utf8ByteSize ≤ n := by
  rw [stateWidth, foldl_max_le_iff, List.forall_mem_map]

/-- The column is wide enough for its heading. -/
theorem four_le_stateWidth (g : Graph) : 4 ≤ stateWidth g := ((stateWidth_le_iff g _).1 (Nat.le_refl _)).1

/-- The column of states is wide enough for every state. -/
theorem utf8ByteSize_le_stateWidth {g : Graph} {n : Node} (hn : n ∈ g.nodes) : n.state.utf8ByteSize ≤ stateWidth g :=
  ((stateWidth_le_iff g _).1 (Nat.le_refl _)).2 n hn

/-- A table is too wide exactly if the name of some state is. -/
theorem maxWidth_lt_stateWidth_iff (g : Graph) : maxWidth < stateWidth g ↔ ∃ n ∈ g.nodes, maxWidth < n.state.utf8ByteSize := by
  have hheading : 4 ≤ maxWidth := by decide
  rw [← Nat.not_le, stateWidth_le_iff]
  simp [hheading]

section

variable {p : Plan} (fingerprint : String)

/-- A column that is not too wide can be shown. -/
theorem planText_of_le (h : stateWidth p.graph ≤ maxWidth) :
    planText p fingerprint = .ok ("\n".intercalate (planLines p fingerprint)) := by
  rw [planText, if_neg (Nat.not_lt.2 h)]

/-- With a wider column there is no table. -/
theorem planText_of_lt (h : maxWidth < stateWidth p.graph) : planText p fingerprint = .error .columnTooWide := by
  rw [planText, if_pos h]

end

end Report

namespace Machine

/-- A numbered action is the way to the sink, or that of a rule. -/
theorem exists_rule_of_mem_catalog {m : Machine} {a : Action} (ha : a ∈ m.catalog.toList) :
    a = .invalid ∨ ∃ (s : String) (p : SymbolPair), m.action? s p = some a := by
  obtain ⟨i, hi⟩ := List.mem_iff_getElem?.1 ha
  obtain ⟨s, -, p, hstep⟩ := (m.isSome_catalog_get?_iff a).1 (Catalog.isSome_get?_of_getElem? hi)
  unfold step? at hstep
  split at hstep
  · cases hstep
  · cases hrule : m.action? s p with
    | none =>
      rw [hrule] at hstep
      cases hstep
      exact .inl rfl
    | some b =>
      rw [hrule] at hstep
      cases hstep
      exact .inr ⟨s, p, hrule⟩

/-- The nodes are those of the numbered actions. -/
theorem exists_action_of_mem_nodes {m : Machine} {n : Node} (hn : n ∈ m.graph.nodes) :
    ∃ a ∈ m.catalog.toList, n.state = a.next ∧ n.program = Graph.programOf m.complete a := by
  obtain ⟨i, hi⟩ := List.mem_iff_getElem?.1 hn
  have hnode := m.graph_node? i
  rw [Graph.node?, hi] at hnode
  obtain ⟨a, ha, rfl⟩ := Option.map_eq_some_iff.1 hnode.symm
  exact ⟨a, List.mem_of_getElem? ha, rfl, rfl⟩

/-- An action that a machine takes in a state it mentions has a node. -/
theorem exists_node_of_step? {m : Machine} {s : String} (hs : s ∈ m.mentioned) {p : SymbolPair} {a : Action}
    (h : m.step? s p = some a) : ∃ n ∈ m.graph.nodes, n.state = a.next ∧ n.program = Graph.programOf m.complete a := by
  obtain ⟨i, hi⟩ := List.mem_iff_getElem?.1 (Catalog.mem_toList.2 ((m.isSome_catalog_get?_iff a).2 ⟨s, hs, p, h⟩))
  have hnode := m.graph_node? i
  rw [hi] at hnode
  exact ⟨m.nodeOf i a, List.mem_of_getElem? hnode, rfl, rfl⟩

/-- The column of states of a machine that is given by its rules. -/
theorem stateWidth_addRules_le {m : Machine} {rules : List (String × SymbolPair × Action)} {n : Nat} (hm : ∀ s p, m.action? s p = none)
    (hsink : sinkState.utf8ByteSize ≤ n) (hrules : ∀ r ∈ rules, r.2.2.next.utf8ByteSize ≤ n) (hn : 4 ≤ n) :
    Report.stateWidth (m.addRules rules).graph ≤ n := by
  refine (Report.stateWidth_le_iff _ n).2 ⟨hn, fun node hnode => ?_⟩
  obtain ⟨a, ha, hstate, -⟩ := exists_action_of_mem_nodes hnode
  rw [hstate]
  rcases exists_rule_of_mem_catalog ha with rfl | ⟨s, p, hrule⟩
  · exact hsink
  · rcases mem_of_action?_addRules rules m hrule with h | h
    · rw [hm] at h
      cases h
    · exact hrules _ h

end Machine

/-! ## A machine with one rule -/

namespace Machine

/-- A machine with one rule, which leads to a state. -/
def leadingTo (state : String) : Machine :=
  (Machine.new "A").addRules [("A", ⟨.zero, .zero⟩, ⟨state, ⟨.zero, .stay⟩, ⟨.zero, .stay⟩⟩)]

variable {state : String}

/-- The machine has one rule. -/
theorem action?_leadingTo (s : String) (p : SymbolPair) : (leadingTo state).action? s p =
    if s = "A" ∧ p = ⟨.zero, .zero⟩ then some ⟨state, ⟨.zero, .stay⟩, ⟨.zero, .stay⟩⟩ else none := by
  have hempty : (Machine.new "A").action? s p = none := by simp [action?, row, Machine.new]
  exact (action?_rule ..).trans (by rw [hempty])

/-- The states of the machine: the initial one, the sink and the one it leads to. -/
theorem mem_mentioned_leadingTo {s : String} (h : s ∈ (leadingTo state).mentioned) : s = "A" ∨ s = sinkState ∨ s = state := by
  rw [mem_mentioned] at h
  rcases h with h | h | h | ⟨t, row, hrow, h⟩
  · exact .inl h
  · exact .inr (.inl h)
  · exact absurd h Std.ExtTreeMap.not_mem_empty
  · have hrow' : (((leadingTo state).transitions)[t]?).getD ∅ = row := by rw [hrow]; rfl
    rcases h with rfl | ⟨p, a, ha, rfl⟩
    · left
      simp only [leadingTo, addRules, List.foldl_cons, List.foldl_nil, rule, Std.ExtTreeMap.getElem?_insert,
        Std.LawfulEqOrd.compare_eq_iff_eq] at hrow
      split at hrow
      · exact Eq.symm ‹_›
      · simp [Machine.new] at hrow
    · have haction : (leadingTo state).action? t p = some a := by rw [action?, Machine.row, hrow', ha]
      rw [action?_leadingTo] at haction
      split at haction
      · cases haction
        exact .inr (.inr rfl)
      · cases haction

/-- The rule has a node. -/
theorem exists_node_leadingTo (state : String) : ∃ n ∈ (leadingTo state).graph.nodes, n.state = state := by
  have hstops : (leadingTo state).stops "A" = false := by
    have hhalts : (leadingTo state).halts = ∅ := rfl
    simp [stops, hhalts, sinkState]
  have hstep : (leadingTo state).step? "A" ⟨.zero, .zero⟩ = some ⟨state, ⟨.zero, .stay⟩, ⟨.zero, .stay⟩⟩ := by
    rw [step?, hstops, if_neg Bool.false_ne_true, action?_leadingTo, if_pos ⟨rfl, rfl⟩, Option.getD_some]
  obtain ⟨n, hn, hnext, -⟩ := exists_node_of_step? (initial_mem_mentioned _) hstep
  exact ⟨n, hn, hnext⟩

/-- Besides it there is at most the way to the sink. -/
theorem length_nodes_leadingTo_le (state : String) : (leadingTo state).graph.nodes.length ≤ 2 := by
  have hnodup : (leadingTo state).catalog.toList.Nodup := by
    have hscan := Catalog.toList_internAll_empty (leadingTo state).complete.scan
    rw [show (leadingTo state).catalog.toList = _ from hscan]
    exact nodup_eraseDups _
  have hsub : (leadingTo state).catalog.toList ⊆ [.invalid, ⟨state, ⟨.zero, .stay⟩, ⟨.zero, .stay⟩⟩] := by
    intro a ha
    rcases exists_rule_of_mem_catalog ha with rfl | ⟨s, p, hrule⟩
    · exact List.mem_cons_self
    · rw [action?_leadingTo] at hrule
      split at hrule
      · cases hrule
        exact List.mem_cons_of_mem _ List.mem_cons_self
      · cases hrule
  rw [graph_length]
  exact (hnodup.subperm hsub).length_le

end Machine

/-- A state with a long name. -/
def longState (n : Nat) : String := "".pushn 'B' n

theorem toList_longState (n : Nat) : (longState n).toList = List.replicate n 'B' := toList_pushn "" 'B' n

/-- A table for a state with too long a name is too wide. -/
theorem Report.maxWidth_lt_longState {n : Nat} (h : maxWidth < n) : maxWidth < stateWidth (Machine.leadingTo (longState n)).graph := by
  obtain ⟨node, hnode, hstate⟩ := Machine.exists_node_leadingTo (longState n)
  refine (maxWidth_lt_stateWidth_iff _).2 ⟨node, hnode, ?_⟩
  have hlength : (longState n).length = n := by rw [← String.length_toList, toList_longState, List.length_replicate]
  have hbytes := length_le_utf8ByteSize (longState n)
  rw [hstate]
  omega

namespace Primality

/-- The names of its states are short enough for the table. -/
theorem stateWidth_machine_le : Report.stateWidth machine.graph ≤ Report.maxWidth := by
  rw [machine_eq]
  have hrules : ∀ r ∈ rules, r.2.2.next.utf8ByteSize ≤ 8 := by decide
  refine Machine.stateWidth_addRules_le (fun _ _ => ?_) (by decide) (fun r hr => (hrules r hr).trans (by decide)) (by decide)
  simp [frame, Machine.action?, Machine.row, Machine.new, Machine.withPrompt, Machine.halt]

end Primality

end DispatchTree
