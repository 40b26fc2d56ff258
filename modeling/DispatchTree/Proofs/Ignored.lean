import Mathlib.Data.List.Perm.Subperm
import DispatchTree.Proofs.Renaming.Graph
import DispatchTree.Proofs.Rules
import DispatchTree.Proofs.Simulation
import DispatchTree.Proofs.Files.Build

/-!
# Rules of terminal states

A machine never takes the rules of the states in which it stops, and its table has no row for them. They leave one trace: a state
that is entered by such a rule and mentioned nowhere else gets a row, all of which leads to the sink. The row has the sink's action
only, so that removing the rules keeps all numbered actions and their order, the sink's action apart (`filter_catalog`), and keeps
every node with its program and its edges (`embeds_withoutIgnored`). If the sink's action keeps its number, everything stays as it
is (`graph_eq_of_catalog`).
-/

namespace DispatchTree

/-- A map with some of its keys. -/
theorem getElem?_filter_keys {β : Type} (keep : String → Bool) (t : Std.ExtTreeMap String β) (k : String) :
    (t.filter fun s _ => keep s)[k]? = if keep k then t[k]? else none := by
  refine Option.ext fun v => ?_
  rw [← Std.ExtTreeMap.mem_toList_iff_getElem?_eq_some, Std.ExtTreeMap.toList_filter, List.mem_filter,
    Std.ExtTreeMap.mem_toList_iff_getElem?_eq_some]
  cases keep k with
  | false => simp
  | true => simp

/-- What contributes nothing may be left out. -/
theorem flatMap_eq_filter {α β : Type} {l : List α} {f : α → List β} {keep : α → Bool} (h : ∀ a ∈ l, keep a = false → f a = []) :
    l.flatMap f = (l.filter keep).flatMap f := by
  induction l with
  | nil => rfl
  | cons a l ih =>
    have htail := ih fun b hb => h b (List.mem_cons_of_mem _ hb)
    cases ha : keep a with
    | false => rw [List.filter_cons_of_neg (by simp [ha]), List.flatMap_cons, h a List.mem_cons_self ha, List.nil_append, htail]
    | true => rw [List.filter_cons_of_pos ha, List.flatMap_cons, List.flatMap_cons, htail]

/-! ## Numbers of some of the actions -/

/-- Actions of a kind are numbered in the order that they have among all actions. -/
theorem Catalog.toList_internAll_filter (keep : Action → Bool) (as : List Action) : ∀ c c' : Catalog,
    c'.toList = c.toList.filter keep → (c'.internAll (as.filter keep)).toList = (c.internAll as).toList.filter keep := by
  induction as with
  | nil => exact fun c c' h => h
  | cons a as ih =>
    intro c c' h
    cases hkeep : keep a with
    | false =>
      rw [List.filter_cons_of_neg (by simp [hkeep])]
      refine ih (c.intern a).2 c' ?_
      rw [h, toList_intern]
      split
      · rfl
      · simp [hkeep]
    | true =>
      rw [List.filter_cons_of_pos hkeep]
      refine ih (c.intern a).2 (c'.intern a).2 ?_
      have hmem : a ∈ c.toList.filter keep ↔ a ∈ c.toList := by simp [hkeep]
      rw [toList_intern, toList_intern, h]
      by_cases ha : a ∈ c.toList
      · rw [if_pos ha, if_pos (hmem.2 ha)]
      · rw [if_neg ha, if_neg fun hf => ha (hmem.1 hf), List.filter_append, List.filter_cons_of_pos hkeep, List.filter_nil]

/-- Catalogs that number the same actions in the same order are equal. -/
theorem Catalog.eq_of_toList {c c' : Catalog} (h : c.toList = c'.toList) : c = c' := by
  have hactions : c.actions = c'.actions := Array.toList_inj.1 h
  have hplaces : c.places = c'.places := by
    refine Std.ExtTreeMap.ext_getElem? fun a => Option.ext fun i => ?_
    rw [c.agree, c'.agree, hactions]
  cases c
  cases c'
  rw [Catalog.mk.injEq]
  exact ⟨hactions, hplaces⟩

/-- Lists that are equal apart from an element, and that have the element at the same places, are equal. -/
theorem eq_of_filter_ne {α : Type} [DecidableEq α] {x : α} : ∀ {l l' : List α},
    l.filter (· ≠ x) = l'.filter (· ≠ x) → (∀ i : Nat, l[i]? = some x ↔ l'[i]? = some x) → l = l' := by
  intro l
  induction l with
  | nil =>
    intro l' hfilter hplaces
    cases l' with
    | nil => rfl
    | cons y l' =>
      have hy : y ≠ x := fun hy => by simpa [hy] using (hplaces 0).2
      simp [hy] at hfilter
  | cons y l ih =>
    intro l' hfilter hplaces
    cases l' with
    | nil =>
      have hy : y ≠ x := fun hy => by simpa [hy] using (hplaces 0).1
      simp [hy] at hfilter
    | cons z l' =>
      have hhead : y = x ↔ z = x := by simpa using hplaces 0
      have htail : ∀ i : Nat, l[i]? = some x ↔ l'[i]? = some x := fun i => by simpa using hplaces (i + 1)
      by_cases hy : y = x
      · have hz := hhead.1 hy
        subst hy
        subst hz
        rw [ih (by simpa using hfilter) htail]
      · have hz : z ≠ x := fun hz => hy (hhead.2 hz)
        simp only [ne_eq, hy, not_false_eq_true, decide_true, List.filter_cons_of_pos, hz, List.cons.injEq] at hfilter
        rw [hfilter.1, ih hfilter.2 htail]

/-- A graph is a part of another one with other numbers: each of its nodes is there, with the same state and program and with edges to
the same nodes. -/
structure Graph.Embeds (g : Graph) (number : Nat → Nat) (g' : Graph) : Prop where
  injective : Set.InjOn number {i | i < g.nodes.length}
  prompt : g'.prompt = g.prompt
  initial : g'.initial = g.initial
  nodes : ∀ i n, g.node? i = some n → ∃ n', g'.node? (number i) = some n' ∧ n'.state = n.state ∧ n'.program = n.program ∧
    ∀ key : String, n'.edges[key]? = n.edges[key]?.map number
  rootEdges : ∀ key : String, g'.rootEdges[key]? = g.rootEdges[key]?.map number

namespace Machine

/-- The machine without the rules of the states in which it stops. -/
def withoutIgnored (m : Machine) : Machine := { m with transitions := m.transitions.filter fun s _ => !m.stops s }

/-- The states that the ignored rules enter are mentioned without them. -/
def IgnoresNoState (m : Machine) : Prop :=
  ∀ state read a, m.stops state = true → m.action? state read = some a → a.next ∈ m.withoutIgnored.mentioned

variable {m : Machine} {state : String}

/-! ## What the machine does without them -/

theorem prompt_withoutIgnored (m : Machine) : m.withoutIgnored.prompt = m.prompt := rfl

theorem initial_withoutIgnored (m : Machine) : m.withoutIgnored.initial = m.initial := rfl

/-- The machine stops in the same states, since these depend on the messages only. -/
theorem stops_withoutIgnored (m : Machine) (state : String) : m.withoutIgnored.stops state = m.stops state := rfl

theorem message?_withoutIgnored (m : Machine) (state : String) : m.withoutIgnored.message? state = m.message? state := rfl

/-- The rows of the states in which the machine stops are gone, and the others are the same. -/
theorem transitions_withoutIgnored (m : Machine) (state : String) :
    m.withoutIgnored.transitions[state]? = if m.stops state then none else m.transitions[state]? := by
  refine (getElem?_filter_keys (fun s => !m.stops s) m.transitions state).trans ?_
  cases m.stops state with
  | false => rfl
  | true => rfl

/-- Where the machine does not stop it has the same rules. -/
theorem action?_withoutIgnored (h : m.stops state = false) (read : SymbolPair) :
    m.withoutIgnored.action? state read = m.action? state read := by
  unfold action? row
  rw [transitions_withoutIgnored, h]
  rfl

/-- The machine takes the same steps. -/
theorem step?_withoutIgnored (m : Machine) (state : String) (read : SymbolPair) :
    m.withoutIgnored.step? state read = m.step? state read := by
  unfold step?
  rw [stops_withoutIgnored]
  cases hstops : m.stops state with
  | false => rw [action?_withoutIgnored hstops]
  | true => rfl

/-- The machine mentions no other states. -/
theorem mentioned_of_withoutIgnored (h : state ∈ m.withoutIgnored.mentioned) : state ∈ m.mentioned := by
  rw [mem_mentioned] at h ⊢
  rcases h with h | h | h | ⟨s, row, hrow, h⟩
  · exact .inl h
  · exact .inr (.inl h)
  · exact .inr (.inr (.inl h))
  · rw [transitions_withoutIgnored] at hrow
    split at hrow
    · cases hrow
    · exact .inr (.inr (.inr ⟨s, row, hrow, h⟩))

/-- A state that is no longer mentioned has no rules, unless the machine stops there. -/
theorem action?_of_notMem (h : state ∉ m.withoutIgnored.mentioned) (hstops : m.stops state = false) (read : SymbolPair) :
    m.action? state read = none := by
  cases haction : m.action? state read with
  | none => rfl
  | some a =>
    refine absurd ?_ h
    unfold action? row at haction
    cases hrow : m.transitions[state]? with
    | none => simp [hrow] at haction
    | some row =>
      refine mem_mentioned_of_transitions state row ?_
      rw [transitions_withoutIgnored, hstops]
      exact hrow

/-! ## What is compiled without them -/

/-- A state in which the machine does not stop has the same full row. -/
theorem fullRow_withoutIgnored (h : m.stops state = false) : m.withoutIgnored.fullRow state = m.fullRow state := by
  unfold fullRow
  simp only [action?_withoutIgnored h]

/-- The rows are those of the states that are still mentioned. -/
theorem rows_withoutIgnored (m : Machine) : m.withoutIgnored.complete.rows =
    m.complete.rows.filter fun s _ => decide (s ∈ m.withoutIgnored.mentioned) := by
  refine Std.ExtTreeMap.ext_getElem? fun s => ?_
  rw [getElem?_filter_keys fun s => decide (s ∈ m.withoutIgnored.mentioned), complete_rows_getElem?, complete_rows_getElem?]
  simp only [mem_rowStates, stops_withoutIgnored, decide_eq_true_eq]
  by_cases hs : s ∈ m.withoutIgnored.mentioned
  · cases hstops : m.stops s with
    | false => simp [hs, mentioned_of_withoutIgnored hs, fullRow_withoutIgnored hstops]
    | true => simp
  · simp [hs]

/-- The row of a state without rules has the sink's action only. -/
theorem mem_fullRow_toList (h : ∀ read, m.action? state read = none) {e : SymbolPair × Action} (he : e ∈ (m.fullRow state).toList) :
    e.2 = .invalid := by
  have hget := Std.ExtTreeMap.mem_toList_iff_getElem?_eq_some.1 he
  rw [fullRow_getElem?, h, Option.getD_none] at hget
  exact (Option.some.inj hget).symm

/-- The actions of the table, the sink's apart, are the same and in the same order. -/
theorem filter_entries (m : Machine) :
    (m.complete.entries.map fun e => e.2.2).filter (· ≠ .invalid) =
      (m.withoutIgnored.complete.entries.map fun e => e.2.2).filter (· ≠ .invalid) := by
  have hghost : ∀ e ∈ m.complete.rows.toList, e.1 ∉ m.withoutIgnored.mentioned →
      ((e.2.toList.map fun r => r.2).filter (· ≠ .invalid)) = [] := by
    rintro ⟨s, row⟩ he hs
    have hrow := Std.ExtTreeMap.mem_toList_iff_getElem?_eq_some.1 he
    rw [complete_rows_getElem?] at hrow
    split at hrow
    · rename_i hmem
      cases hrow
      rw [List.filter_eq_nil_iff]
      intro a ha
      obtain ⟨e, he, rfl⟩ := List.mem_map.1 ha
      simp [mem_fullRow_toList (action?_of_notMem hs ((m.mem_rowStates s).1 hmem).2) he]
    · cases hrow
  simp only [Table.entries, List.map_flatMap, List.map_map, List.filter_flatMap]
  rw [rows_withoutIgnored, Std.ExtTreeMap.toList_filter]
  exact flatMap_eq_filter fun e he hs => hghost e he (by simpa using hs)

/-- The numbered actions, the sink's apart, are the same and in the same order. -/
theorem filter_catalog (m : Machine) :
    m.catalog.toList.filter (· ≠ .invalid) = m.withoutIgnored.catalog.toList.filter (· ≠ .invalid) := by
  unfold catalog Catalog.ofTable
  rw [← Catalog.toList_internAll_filter _ _ .empty .empty rfl, ← Catalog.toList_internAll_filter _ _ .empty .empty rfl,
    filter_entries]

/-- An action that has a number without the ignored rules has one with them. -/
theorem isSome_get?_of_withoutIgnored {a : Action} (h : (m.withoutIgnored.catalog.get? a).isSome) : (m.catalog.get? a).isSome := by
  obtain ⟨s, hs, p, hstep⟩ := (m.withoutIgnored.isSome_catalog_get?_iff a).1 h
  rw [step?_withoutIgnored] at hstep
  exact (m.isSome_catalog_get?_iff a).2 ⟨s, mentioned_of_withoutIgnored hs, p, hstep⟩

/-- The ignored rules take no numbers away. -/
theorem size_withoutIgnored (hm : m.catalog.size ≤ Catalog.capacity) : m.withoutIgnored.catalog.size ≤ Catalog.capacity := by
  have hsubset : m.withoutIgnored.catalog.toList ⊆ m.catalog.toList := fun a ha =>
    Catalog.mem_toList.2 (isSome_get?_of_withoutIgnored (Catalog.mem_toList.1 ha))
  have hlength := (List.subperm_of_subset (Catalog.nodup_toList _) hsubset).length_le
  rw [Catalog.length_toList, Catalog.length_toList] at hlength
  omega

/-- If the sink's action keeps its number, all actions keep theirs. -/
theorem catalog_eq_of_invalid (hm : m.catalog.size ≤ Catalog.capacity)
    (h : m.catalog.get? .invalid = m.withoutIgnored.catalog.get? .invalid) :
    m.catalog = m.withoutIgnored.catalog := by
  refine Catalog.eq_of_toList (eq_of_filter_ne m.filter_catalog fun i => ?_)
  rw [← Catalog.get?_eq_some_iff hm, ← Catalog.get?_eq_some_iff (size_withoutIgnored hm), h]

/-- An action has the same program. -/
theorem programOf_withoutIgnored (m : Machine) (a : Action) :
    Graph.programOf m.withoutIgnored.complete a = Graph.programOf m.complete a := by
  rw [programOf_eq, programOf_eq, message?_withoutIgnored]

/-- If all actions keep their numbers, the graph stays as it is. -/
theorem graph_eq_of_catalog (h : m.catalog = m.withoutIgnored.catalog) : m.graph = m.withoutIgnored.graph := by
  have hlinks : ∀ {s}, s ∈ m.withoutIgnored.mentioned → m.links s = m.withoutIgnored.links s := by
    intro s hs
    refine Std.ExtTreeMap.ext_getElem? fun key => ?_
    rw [m.links_getElem? (mentioned_of_withoutIgnored hs), m.withoutIgnored.links_getElem? hs, h]
    simp only [step?_withoutIgnored]
  have hnode : ∀ i a, m.withoutIgnored.catalog.toList[i]? = some a → m.nodeOf i a = m.withoutIgnored.nodeOf i a := by
    intro i a ha
    have hmem := next_mem_of_catalog (Catalog.isSome_get?_of_getElem? ha)
    rw [nodeOf, nodeOf, programOf_withoutIgnored, hlinks hmem]
  have hnodes : m.catalog.toList.mapIdx m.nodeOf = m.withoutIgnored.catalog.toList.mapIdx m.withoutIgnored.nodeOf := by
    refine List.ext_getElem? fun i => ?_
    rw [List.getElem?_mapIdx, List.getElem?_mapIdx, h]
    cases ha : m.withoutIgnored.catalog.toList[i]? with
    | none => rw [Option.map_none, Option.map_none]
    | some a => rw [Option.map_some, Option.map_some, hnode i a ha]
  have hroot : m.links m.initial = m.withoutIgnored.links m.withoutIgnored.initial := hlinks m.withoutIgnored.initial_mem_mentioned
  rw [graph, graph, hnodes, hroot, prompt_withoutIgnored, initial_withoutIgnored]

/-- If the states that the ignored rules enter are mentioned without them, the same states are mentioned. -/
theorem IgnoresNoState.mentioned_iff (h : m.IgnoresNoState) : state ∈ m.withoutIgnored.mentioned ↔ state ∈ m.mentioned := by
  refine ⟨mentioned_of_withoutIgnored, fun hs => ?_⟩
  rcases (m.mem_mentioned state).1 hs with rfl | rfl | hhalt | ⟨s, row, hrow, hs⟩
  · exact m.withoutIgnored.initial_mem_mentioned
  · exact m.withoutIgnored.sink_mem_mentioned
  · exact (mem_mentioned _ _).2 (.inr (.inr (.inl hhalt)))
  · cases hstops : m.stops s with
    | false =>
      refine (mem_mentioned _ _).2 (.inr (.inr (.inr ⟨s, row, ?_, hs⟩)))
      rw [transitions_withoutIgnored, hstops]
      exact hrow
    | true =>
      rcases hs with rfl | ⟨p, a, ha, rfl⟩
      · -- a state in which the machine stops is declared, or it is the sink
        simp only [stops, Bool.or_eq_true, beq_iff_eq] at hstops
        rcases hstops with hdeclared | rfl
        · exact (mem_mentioned _ _).2 (.inr (.inr (.inl hdeclared)))
        · exact m.withoutIgnored.sink_mem_mentioned
      · refine h s p a hstops ?_
        rw [action?, Machine.row, hrow]
        exact ha

/-- If the states that the ignored rules enter are mentioned without them, all actions keep their numbers. -/
theorem IgnoresNoState.catalog_eq (h : m.IgnoresNoState) : m.catalog = m.withoutIgnored.catalog := by
  have hrows : m.withoutIgnored.complete.rows = m.complete.rows := by
    refine Std.ExtTreeMap.ext_getElem? fun s => ?_
    rw [complete_rows_getElem?, complete_rows_getElem?]
    simp only [mem_rowStates, stops_withoutIgnored, h.mentioned_iff]
    cases hstops : m.stops s with
    | false => rw [fullRow_withoutIgnored hstops]
    | true => simp
  have hentries : m.withoutIgnored.complete.entries = m.complete.entries := by rw [Table.entries, Table.entries, hrows]
  rw [catalog, catalog, Catalog.ofTable, Catalog.ofTable, hentries]

/-! ## Nodes with and without them -/

/-- The number that the action of a number has with the ignored rules. -/
def numberWith (m : Machine) (i : Nat) : Nat := (m.withoutIgnored.catalog.toList[i]?.bind m.catalog.get?).getD 0

/-- An action that has a number without the ignored rules has this one with them. -/
theorem get?_numberWith (hm : m.catalog.size ≤ Catalog.capacity) {a : Action} {i : Nat} (h : m.withoutIgnored.catalog.get? a = some i) :
    m.catalog.get? a = some (m.numberWith i) := by
  obtain ⟨j, hj⟩ := Option.isSome_iff_exists.1 (isSome_get?_of_withoutIgnored (Option.isSome_iff_exists.2 ⟨i, h⟩))
  rw [numberWith, (Catalog.get?_eq_some_iff (size_withoutIgnored hm) a i).1 h, Option.bind_some, hj]
  rfl

/-- The links of a state lead to the same actions, by their numbers with the ignored rules. -/
theorem links_numberWith (hm : m.catalog.size ≤ Catalog.capacity) (h : state ∈ m.withoutIgnored.mentioned) (key : String) :
    (m.links state)[key]? = (m.withoutIgnored.links state)[key]?.map m.numberWith := by
  rw [m.links_getElem? (mentioned_of_withoutIgnored h), m.withoutIgnored.links_getElem? h]
  cases SymbolPair.ofKey? key with
  | none => rfl
  | some p =>
    simp only [Option.bind_some, step?_withoutIgnored]
    cases hstep : m.step? state p with
    | none => rfl
    | some a =>
      have hsome := (m.withoutIgnored.isSome_catalog_get?_iff a).2 ⟨state, h, p, (m.step?_withoutIgnored state p).trans hstep⟩
      obtain ⟨i, hi⟩ := Option.isSome_iff_exists.1 hsome
      rw [Option.bind_some, Option.bind_some, hi, get?_numberWith hm hi]
      rfl

/-- Different nodes go to different nodes. -/
theorem injOn_numberWith (m : Machine) (hm : m.catalog.size ≤ Catalog.capacity) :
    Set.InjOn m.numberWith {i | i < m.withoutIgnored.graph.nodes.length} := by
  have haction : ∀ i < m.withoutIgnored.graph.nodes.length, ∃ a, m.withoutIgnored.catalog.get? a = some i := by
    intro i hi
    rw [graph_length] at hi
    exact ⟨_, (Catalog.get?_eq_some_iff (size_withoutIgnored hm) _ i).2 (List.getElem?_eq_getElem hi)⟩
  intro i hi j hj hij
  obtain ⟨a, ha⟩ := haction i hi
  obtain ⟨b, hb⟩ := haction j hj
  have hab := (Catalog.get?_eq_some_iff hm a _).1 (get?_numberWith hm ha)
  rw [hij, (Catalog.get?_eq_some_iff hm b _).1 (get?_numberWith hm hb), Option.some.injEq] at hab
  rw [hab, ha] at hb
  exact Option.some.inj hb

theorem graph_prompt (m : Machine) : m.graph.prompt = m.prompt := by rw [graph]

theorem graph_initial (m : Machine) : m.graph.initial = m.initial := by rw [graph]

theorem nodeOf_state (m : Machine) (id : Nat) (a : Action) : (m.nodeOf id a).state = a.next := by rw [nodeOf]

theorem nodeOf_program (m : Machine) (id : Nat) (a : Action) : (m.nodeOf id a).program = Graph.programOf m.complete a := by
  rw [nodeOf]

/-- The graph without the ignored rules is a part of the graph with them. -/
theorem embeds_withoutIgnored (m : Machine) (hm : m.catalog.size ≤ Catalog.capacity) :
    m.withoutIgnored.graph.Embeds m.numberWith m.graph := by
  -- the fields are compared through lemmas, since `rfl` would compute both graphs
  refine ⟨m.injOn_numberWith hm, ?_, ?_, fun i n hn => ?_, fun key => ?_⟩
  · rw [graph_prompt, graph_prompt, prompt_withoutIgnored]
  · rw [graph_initial, graph_initial, initial_withoutIgnored]
  · rw [graph_node?, Option.map_eq_some_iff] at hn
    obtain ⟨a, ha, rfl⟩ := hn
    have hi := (Catalog.get?_eq_some_iff (size_withoutIgnored hm) a i).2 ha
    refine ⟨m.nodeOf (m.numberWith i) a, ?_, ?_, ?_, fun key => ?_⟩
    · rw [graph_node?, (Catalog.get?_eq_some_iff hm a _).1 (get?_numberWith hm hi), Option.map_some]
    · rw [nodeOf_state, nodeOf_state]
    · rw [nodeOf_program, nodeOf_program, programOf_withoutIgnored]
    · rw [nodeOf_edges, nodeOf_edges]
      exact links_numberWith hm (next_mem_of_catalog (Option.isSome_iff_exists.2 ⟨i, hi⟩)) key
  · rw [graph_rootEdges, graph_rootEdges]
    exact links_numberWith hm m.withoutIgnored.initial_mem_mentioned key

end Machine

/-- The trace of the rules that a machine with at most `2 ^ 32` actions ignores. Without them the numbered actions are the same and
in the same order, except that the sink's action may be missing or stand elsewhere; every node is there with them as well, with the
same state and program and with edges to the nodes of the same actions. Numbers, graph and fingerprints are the same if the sink's
action has the same number in both, or none; and this is so if every state that an ignored rule enters is mentioned without it. -/
theorem ignored_rules_trace (m : Machine) (hm : m.catalog.size ≤ Catalog.capacity) :
    ∃ plan plan' number, m.plan = .ok plan ∧ m.withoutIgnored.plan = .ok plan' ∧
      plan.catalog.toList.filter (· ≠ .invalid) = plan'.catalog.toList.filter (· ≠ .invalid) ∧
      (∀ a i, plan'.catalog.get? a = some i → plan.catalog.get? a = some (number i)) ∧
      plan'.graph.Embeds number plan.graph ∧
      (plan.catalog.get? .invalid = plan'.catalog.get? .invalid →
        plan.catalog = plan'.catalog ∧ plan.graph = plan'.graph ∧
          ∀ d : Display, 0 < d.columns → ∃ text, plan.graph.fingerprint d = .ok text ∧ plan'.graph.fingerprint d = .ok text) ∧
      (m.IgnoresNoState → plan.catalog.get? .invalid = plan'.catalog.get? .invalid) := by
  refine ⟨_, _, m.numberWith, m.plan_eq, m.withoutIgnored.plan_eq, ?_⟩
  dsimp only
  refine ⟨m.filter_catalog, fun a i => Machine.get?_numberWith hm, m.embeds_withoutIgnored hm, fun h => ?_, fun h => by rw [h.catalog_eq]⟩
  have hcatalog := Machine.catalog_eq_of_invalid hm h
  have hgraph := Machine.graph_eq_of_catalog hcatalog
  refine ⟨hcatalog, hgraph, fun d hd => ?_⟩
  obtain ⟨text, htext⟩ := Graph.exists_fingerprint hd m.graph
  exact ⟨text, htext, hgraph ▸ htext⟩

/-- A machine with a rule for its terminal state that leads back. -/
def returning : Machine := onesToZeros.rule "B" ⟨.zero, .zero⟩ ⟨"A", .idle, .idle⟩

/-- The ignored rule enters the initial state, which is mentioned anyway. -/
theorem ignoresNoState_returning : returning.IgnoresNoState := by
  intro state read a hstops haction
  rw [returning, Machine.action?_rule] at haction
  split at haction
  · cases haction
    exact Machine.initial_mem_mentioned _
  · rw [onesToZeros, Machine.action?_rule] at haction
    split at haction
    · rename_i hstate
      rw [hstate.1] at hstops
      exact absurd hstops (by decide +kernel)
    · cases haction

/-- A rule of the terminal state that leads back to the initial state leaves no trace. -/
theorem ignored_rules_returning :
    returning.catalog.size ≤ Catalog.capacity ∧ returning ≠ returning.withoutIgnored ∧ returning.IgnoresNoState ∧
      ∃ plan plan', returning.plan = .ok plan ∧ returning.withoutIgnored.plan = .ok plan' ∧ plan.graph = plan'.graph ∧
        ∃ text, plan.graph.fingerprint ⟨4⟩ = .ok text ∧ plan'.graph.fingerprint ⟨4⟩ = .ok text := by
  have hm : returning.catalog.size ≤ Catalog.capacity := by decide +kernel
  obtain ⟨plan, plan', -, hplan, hplan', -, -, -, hsame, hinvalid⟩ := ignored_rules_trace returning hm
  obtain ⟨-, hgraph, hfingerprint⟩ := hsame (hinvalid ignoresNoState_returning)
  exact ⟨hm, by decide +kernel, ignoresNoState_returning, plan, plan', hplan, hplan', hgraph, hfingerprint ⟨4⟩ (by decide)⟩

/-- A machine that stops at once, with a rule for its initial state that enters a state of which nothing else is said. -/
def straying : Machine := ((Machine.new "A").halt "A" "done").rule "A" ⟨.zero, .zero⟩ ⟨"B", .idle, .idle⟩

/-- A machine has a plan, with one node for each action of its catalog. -/
theorem Machine.exists_plan (m : Machine) :
    ∃ plan, m.plan = .ok plan ∧ plan.catalog = m.catalog ∧ plan.graph.nodes.length = m.catalog.toList.length :=
  ⟨⟨m.complete, m.catalog, m.graph⟩, m.plan_eq, rfl, m.graph_length⟩

/-- The ignored rule of `straying` gives its graph a node that is not there without it. -/
theorem ignored_rule_adds_node :
    ∃ plan plan', straying.plan = .ok plan ∧ straying.withoutIgnored.plan = .ok plan' ∧
      plan.catalog ≠ plan'.catalog ∧ plan.graph ≠ plan'.graph ∧ plan.graph.nodes.length = 1 ∧ plan'.graph.nodes.length = 0 := by
  have hone : straying.catalog.toList.length = 1 := by decide +kernel
  have hnone : straying.withoutIgnored.catalog.toList.length = 0 := by decide +kernel
  obtain ⟨plan, hplan, hcatalog, hlength⟩ := straying.exists_plan
  obtain ⟨plan', hplan', hcatalog', hlength'⟩ := straying.withoutIgnored.exists_plan
  rw [hone] at hlength
  rw [hnone] at hlength'
  refine ⟨plan, plan', hplan, hplan', fun h => ?_, fun h => ?_, hlength, hlength'⟩
  · rw [← hcatalog, h, hcatalog', hnone] at hone
    cases hone
  · rw [h, hlength'] at hlength
    cases hlength

end DispatchTree
