import DispatchTree.Plan
import DispatchTree.Proofs.Completion
import DispatchTree.Proofs.Numbering

/-!
# What a compiled machine looks like

A dispatch key belongs to one pair (`pairOf?_of_mem`), so the edges of a state never conflict: if every action of the state's row
has a number, its edges are `linksOf`, the number of the row's answer under both keys of each pair (`stateEdges_eq`). The catalog
of a completed table numbers every action of the table, hence compiling a machine always succeeds, and the graph is known in
closed form (`plan_eq`).
-/

namespace DispatchTree

/-! ## Dispatch keys -/

namespace SymbolPair

/-- The pair a dispatch key belongs to. -/
def ofKey? (key : String) : Option SymbolPair := all.find? fun p => decide (key ∈ p.dispatchKeys)

/-- A key in the forward order is never one in the reverse order. -/
theorem forwardKey_ne_reverseKey (p q : SymbolPair) : p.forwardKey ≠ q.reverseKey := by
  rcases p with ⟨a, b⟩
  rcases q with ⟨c, d⟩
  cases a <;> cases b <;> cases c <;> cases d <;> decide

/-- Different pairs have different forward keys. -/
theorem forwardKey_injective {p q : SymbolPair} (h : p.forwardKey = q.forwardKey) : p = q := by
  revert h
  rcases p with ⟨a, b⟩
  rcases q with ⟨c, d⟩
  cases a <;> cases b <;> cases c <;> cases d <;> decide

/-- Different pairs have different reverse keys. -/
theorem reverseKey_injective {p q : SymbolPair} (h : p.reverseKey = q.reverseKey) : p = q := by
  revert h
  rcases p with ⟨a, b⟩
  rcases q with ⟨c, d⟩
  cases a <;> cases b <;> cases c <;> cases d <;> decide

/-- A key belongs to one pair only. -/
theorem eq_of_mem_dispatchKeys {p q : SymbolPair} {key : String} (hp : key ∈ p.dispatchKeys) (hq : key ∈ q.dispatchKeys) :
    p = q := by
  simp only [dispatchKeys, List.mem_cons, List.not_mem_nil, or_false] at hp hq
  rcases hp with rfl | rfl <;> rcases hq with hq | hq
  · exact forwardKey_injective hq
  · exact absurd hq (forwardKey_ne_reverseKey p q)
  · exact absurd hq.symm (forwardKey_ne_reverseKey q p)
  · exact reverseKey_injective hq

/-- Each key of a pair is read as the pair. -/
theorem ofKey?_of_mem {p : SymbolPair} {key : String} (h : key ∈ p.dispatchKeys) : ofKey? key = some p := by
  cases hf : ofKey? key with
  | none =>
    have := List.find?_eq_none.1 hf p (mem_all p)
    simp [h] at this
  | some q =>
    have hq : key ∈ q.dispatchKeys := by simpa using List.find?_some hf
    rw [eq_of_mem_dispatchKeys hq h]

/-- What is read as a pair is one of its keys. -/
theorem mem_dispatchKeys_of_ofKey? {p : SymbolPair} {key : String} (h : ofKey? key = some p) : key ∈ p.dispatchKeys := by
  simpa using List.find?_some h

/-- Every other text is no key. -/
theorem ofKey?_eq_none_iff (key : String) : ofKey? key = none ↔ ∀ p : SymbolPair, key ∉ p.dispatchKeys := by
  constructor
  · intro h p hp
    rw [ofKey?_of_mem hp] at h
    cases h
  · intro h
    cases hf : ofKey? key with
    | none => rfl
    | some p => exact absurd (mem_dispatchKeys_of_ofKey? hf) (h p)

end SymbolPair

/-! ## The edges of one row -/

theorem mapError_ok {ε δ α : Type} (f : ε → δ) (a : α) : (Except.ok a : Except ε α).mapError f = .ok a := rfl

namespace Graph

/-- Both keys of a pair are inserted if neither has an edge yet. -/
theorem insertKeys_eq (source : EdgeSource) (target : Nat) (p : SymbolPair) (es : Edges)
    (hf : ∀ key ∈ p.dispatchKeys, es[key]? = none) :
    insertKeys source target p.dispatchKeys es =
      .ok ((es.insert p.forwardKey target).insert p.reverseKey target) := by
  have h1 : es[p.forwardKey]? = none := hf _ (by simp [SymbolPair.dispatchKeys])
  have h2 : (es.insert p.forwardKey target)[p.reverseKey]? = none := by
    rw [Std.ExtTreeMap.getElem?_insert, if_neg, hf _ (by simp [SymbolPair.dispatchKeys])]
    rw [Std.LawfulEqOrd.compare_eq_iff_eq]
    exact SymbolPair.forwardKey_ne_reverseKey p p
  simp only [SymbolPair.dispatchKeys, insertKeys, Edges.insertEdge, h1, mapError_ok, bind, Except.bind, h2]

/-- What stands under a key after both keys of a pair were inserted. -/
theorem getElem?_insert_keys (p : SymbolPair) (target : Nat) (es : Edges) (key : String) :
    ((es.insert p.forwardKey target).insert p.reverseKey target)[key]? =
      if key ∈ p.dispatchKeys then some target else es[key]? := by
  simp only [Std.ExtTreeMap.getElem?_insert, Std.LawfulEqOrd.compare_eq_iff_eq, SymbolPair.dispatchKeys, List.mem_cons,
    List.not_mem_nil, or_false]
  by_cases h1 : key = p.forwardKey
  · simp [h1]
  · by_cases h2 : key = p.reverseKey
    · simp [h2]
    · simp [h1, h2, Ne.symm h1, Ne.symm h2]

/-- The transitions of distinct pairs, all of whose actions have numbers, are inserted without a conflict: each key of theirs leads
to the number of its pair's action, and the other keys are as before. -/
theorem insertRow_ok (c : Catalog) (state : String) : ∀ (l : List (SymbolPair × Action)) (es : Edges),
    (∀ e ∈ l, (c.get? e.2).isSome) → (l.map (·.1)).Nodup → (∀ e ∈ l, ∀ key ∈ e.1.dispatchKeys, es[key]? = none) →
    ∃ es', insertRow c state l es = .ok es' ∧
      ∀ key, es'[key]? = ((l.find? fun e => decide (key ∈ e.1.dispatchKeys)).bind fun e => c.get? e.2).or es[key]? := by
  intro l
  induction l with
  | nil => intro es _ _ _; exact ⟨es, rfl, by simp⟩
  | cons e l ih =>
    obtain ⟨p, a⟩ := e
    intro es hnum hnd hfree
    obtain ⟨id, hid⟩ := Option.isSome_iff_exists.1 (hnum (p, a) (by simp))
    have hp : p ∉ l.map (·.1) := (List.nodup_cons.1 hnd).1
    obtain ⟨es', hes', hget⟩ := ih ((es.insert p.forwardKey id).insert p.reverseKey id)
      (fun e he => hnum e (List.mem_cons_of_mem _ he)) (List.nodup_cons.1 hnd).2 (by
        intro e he key hkey
        rw [getElem?_insert_keys, if_neg, hfree e (List.mem_cons_of_mem _ he) key hkey]
        intro hk
        exact hp (List.mem_map.mpr ⟨e, he, SymbolPair.eq_of_mem_dispatchKeys hkey hk⟩))
    refine ⟨es', ?_, fun key => ?_⟩
    · simp only [insertRow, hid, insertKeys_eq ⟨state, p⟩ id p es (hfree (p, a) (by simp)), bind, Except.bind]
      exact hes'
    · rw [hget, getElem?_insert_keys, List.find?_cons]
      by_cases hk : key ∈ p.dispatchKeys
      · have hn : (l.find? fun e => decide (key ∈ e.1.dispatchKeys)) = none := by
          rw [List.find?_eq_none]
          intro e he hke
          have hke' : key ∈ e.1.dispatchKeys := by simpa using hke
          exact hp (List.mem_map.mpr ⟨e, he, SymbolPair.eq_of_mem_dispatchKeys hke' hk⟩)
        simp [hk, hn, hid]
      · simp [hk]

end Graph

/-- In a row, the transition that a key belongs to is the row's answer to the key's pair. -/
theorem find?_row_key (row : Row) (key : String) :
    ((row.toList.find? fun e => decide (key ∈ e.1.dispatchKeys)).map fun e => e.2) =
      (SymbolPair.ofKey? key).bind fun p => row[p]? := by
  cases hk : SymbolPair.ofKey? key with
  | none =>
    have hn : (row.toList.find? fun e => decide (key ∈ e.1.dispatchKeys)) = none := by
      rw [List.find?_eq_none]
      intro e _
      simpa using (SymbolPair.ofKey?_eq_none_iff key).1 hk e.1
    simp [hn]
  | some p =>
    have hmem := SymbolPair.mem_dispatchKeys_of_ofKey? hk
    cases hf : row.toList.find? fun e => decide (key ∈ e.1.dispatchKeys) with
    | none =>
      cases hr : row[p]? with
      | none => simp [hr]
      | some a =>
        have := List.find?_eq_none.1 hf (p, a) (Std.ExtTreeMap.mem_toList_iff_getElem?_eq_some.2 hr)
        simp [hmem] at this
    | some e =>
      obtain ⟨q, a⟩ := e
      have hq : key ∈ q.dispatchKeys := by simpa using List.find?_some hf
      obtain rfl := SymbolPair.eq_of_mem_dispatchKeys hq hmem
      simp [Std.ExtTreeMap.mem_toList_iff_getElem?_eq_some.1 (List.mem_of_find?_eq_some hf)]

/-! ## The edges of a state -/

/-- The edges of a state, if its actions have numbers. -/
def linksOf (t : Table) (c : Catalog) (state : String) : Edges := (Graph.stateEdges t c state).toOption.getD ∅

/-- A state whose actions have numbers gets edges: each key leads to the number of the table's answer to the key's pair. -/
theorem stateEdges_ok (t : Table) (c : Catalog) (state : String)
    (hc : ∀ (p : SymbolPair) (a : Action), t.lookup state p = some a → (c.get? a).isSome) :
    ∃ es, Graph.stateEdges t c state = .ok es ∧
      ∀ key, es[key]? = (SymbolPair.ofKey? key).bind fun p => (t.lookup state p).bind c.get? := by
  unfold Graph.stateEdges
  cases hr : t.rows[state]? with
  | none => exact ⟨∅, rfl, by simp [Table.lookup, hr]⟩
  | some row =>
    have hnum : ∀ e ∈ row.toList, (c.get? e.2).isSome := by
      intro e he
      apply hc e.1 e.2
      simp [Table.lookup, hr, Std.ExtTreeMap.mem_toList_iff_getElem?_eq_some.1 he]
    have hnd : (row.toList.map (·.1)).Nodup := by
      rw [List.Nodup, List.pairwise_map]
      exact (Std.ExtTreeMap.distinct_keys_toList (t := row)).imp fun h he => h (Std.LawfulEqOrd.compare_eq_iff_eq.2 he)
    obtain ⟨es, hes, hget⟩ := Graph.insertRow_ok c state row.toList ∅ hnum hnd (by simp)
    refine ⟨es, hes, fun key => ?_⟩
    have hfind := find?_row_key row key
    rw [hget]
    simp only [Table.lookup, hr, Option.bind_some, Std.ExtTreeMap.getElem?_empty, Option.or_none]
    rw [← Option.bind_assoc, ← hfind, Option.bind_map]
    rfl

/-- The edges of a state can be linked if every action that it can take has a number. -/
theorem stateEdges_eq (t : Table) (c : Catalog) (state : String)
    (hc : ∀ (p : SymbolPair) (a : Action), t.lookup state p = some a → (c.get? a).isSome) :
    Graph.stateEdges t c state = .ok (linksOf t c state) := by
  obtain ⟨es, hes, _⟩ := stateEdges_ok t c state hc
  rw [linksOf, hes]
  rfl

/-- The edge under a key leads to the number of the action for the pair of the key. -/
theorem linksOf_getElem? (t : Table) (c : Catalog) (state : String)
    (hc : ∀ (p : SymbolPair) (a : Action), t.lookup state p = some a → (c.get? a).isSome) (key : String) :
    (linksOf t c state)[key]? = (SymbolPair.ofKey? key).bind fun p => (t.lookup state p).bind c.get? := by
  obtain ⟨es, hes, hget⟩ := stateEdges_ok t c state hc
  rw [← hget, linksOf, hes]
  rfl

/-! ## The graph of a machine -/

/-- The nodes of actions, if every action of the table has a number. -/
theorem nodesOf_eq (t : Table) (c : Catalog)
    (hc : ∀ (state : String) (p : SymbolPair) (a : Action), t.lookup state p = some a → (c.get? a).isSome) :
    ∀ (as : List Action) (place : Nat), Graph.nodesOf t c place as =
      .ok (as.mapIdx fun i a => ⟨Catalog.number (place + i), a.next, Graph.programOf t a, linksOf t c a.next⟩) := by
  intro as
  induction as with
  | nil => intro place; rfl
  | cons a as ih =>
    intro place
    simp only [Graph.nodesOf, Graph.nodeOf, stateEdges_eq t c a.next (hc a.next), ih, Except.map, bind, Except.bind, pure,
      Except.pure, List.mapIdx_cons, Nat.add_zero, Nat.add_assoc, Nat.add_comm 1]

namespace Machine

/-- The catalog of a machine's completed table. -/
def catalog (m : Machine) : Catalog := Catalog.ofTable m.complete

/-- The edges of a state of a machine. -/
def links (m : Machine) (state : String) : Edges := linksOf m.complete m.catalog state

/-- The node of an action of a machine that has the given place. -/
def nodeOf (m : Machine) (place : Nat) (a : Action) : Node :=
  ⟨Catalog.number place, a.next, Graph.programOf m.complete a, m.links a.next⟩

/-- The graph of a machine in closed form: one node for each numbered action, and the edges of the initial state. -/
def graph (m : Machine) : Graph := ⟨m.prompt, m.initial, m.catalog.toList.mapIdx m.nodeOf, m.links m.initial⟩

-- By `rw`, since `rfl` would compute the edges on both sides.
/-- The root has the edges of the initial state. -/
theorem graph_rootEdges (m : Machine) : m.graph.rootEdges = m.links m.initial := by rw [graph]

/-- The edges of a node are those of the state it enters. -/
theorem nodeOf_edges (m : Machine) (place : Nat) (a : Action) : (m.nodeOf place a).edges = m.links a.next := by rw [nodeOf]

/-- While there are numbers enough, the number of a node is its place. -/
theorem nodeOf_id {m : Machine} (hm : m.catalog.size ≤ Catalog.capacity) {place : Nat} (h : place < m.catalog.toList.length)
    (a : Action) : (m.nodeOf place a).id = place :=
  Catalog.number_of_lt_length hm h

/-- Every action of the completed table has a number. -/
theorem isSome_catalog_get? (m : Machine) (state : String) (p : SymbolPair) (a : Action)
    (h : m.complete.lookup state p = some a) : (m.catalog.get? a).isSome :=
  (Catalog.isSome_get?_ofTable m.complete a).2 ⟨state, p, h⟩

/-- Compiling a machine succeeds and gives its table, its catalog and its graph. -/
theorem plan_eq (m : Machine) : m.plan = .ok ⟨m.complete, m.catalog, m.graph⟩ := by
  have hn := nodesOf_eq m.complete m.catalog m.isSome_catalog_get? m.catalog.toList 0
  have hr := stateEdges_eq m.complete m.catalog m.initial (m.isSome_catalog_get? m.initial)
  simp only [Nat.zero_add] at hn
  unfold plan Graph.build
  simp only [show Catalog.ofTable m.complete = m.catalog from rfl, hn, bind, Except.bind, pure, Except.pure,
    show m.complete.initial = m.initial from rfl, hr]
  rfl

/-- Every machine has a plan. -/
theorem exists_plan_eq (m : Machine) : ∃ plan, m.plan = .ok plan := ⟨_, m.plan_eq⟩

/-- The graph of a plan is the graph of the machine. -/
theorem graph_of_plan {m : Machine} {plan : Plan} (h : m.plan = .ok plan) : plan.graph = m.graph := by
  rw [m.plan_eq] at h
  cases h
  rfl

/-- The edges of a state that the machine mentions: a key leads to the number of the action taken on the key's pair. -/
theorem links_getElem? (m : Machine) {state : String} (h : state ∈ m.mentioned) (key : String) :
    (m.links state)[key]? = (SymbolPair.ofKey? key).bind fun p => (m.step? state p).bind m.catalog.get? := by
  unfold links
  rw [linksOf_getElem? m.complete m.catalog state (m.isSome_catalog_get? state)]
  simp only [m.complete_lookup h]

/-- The program of an action: the message of the state it enters if the machine stops there, and else its two operations. -/
theorem programOf_eq (m : Machine) (a : Action) :
    Graph.programOf m.complete a =
      match m.message? a.next with
      | some message => .halt message
      | none => .step a.first a.second := by
  have hhalt : m.complete.halts[a.next]? = m.message? a.next := m.terminals_getElem? a.next
  cases hmessage : m.message? a.next with
  | none => simp only [Graph.programOf, hhalt, hmessage]
  | some message => simp only [Graph.programOf, hhalt, hmessage]

/-- The node at a place is that of the action at this place. -/
theorem graph_node? (m : Machine) (place : Nat) :
    m.graph.node? place = (m.catalog.toList[place]?).map (m.nodeOf place) := by
  simp [graph, Graph.node?, List.getElem?_mapIdx]

end Machine

/-! ## Programs -/

/-- On a display with columns every program can be rendered. -/
theorem Program.exists_render {d : Display} (hd : 0 < d.columns) (p : Program) : ∃ text, p.render d = .ok text := by
  have hshift : ∀ (t : Track) (m : Move), ∃ cs, d.shift t m = .ok cs := by
    intro t m
    cases m with
    | left => exact ⟨_, if_neg (by omega)⟩
    | right => exact ⟨_, rfl⟩
    | stay => exact ⟨_, rfl⟩
  have hwrite : ∀ (t : Track) (op : TrackOp), ∃ cs, d.writeTrack t op = .ok cs := by
    intro t op
    obtain ⟨cs, hcs⟩ := hshift t op.shift
    exact ⟨_, by rw [Display.writeTrack, hcs, Except.map]⟩
  cases p with
  | halt message => exact ⟨_, rfl⟩
  | step first second =>
    obtain ⟨one, h1⟩ := hwrite .first first
    obtain ⟨two, h2⟩ := hwrite .second second
    exact ⟨_, by simp only [render, commands, Display.stepProgram, h1, h2]; rfl⟩

end DispatchTree
