import DispatchTree.Proofs.Sighting

/-!
# When a table and a catalog give no graph

A graph is built state by state: for each numbered action the state it enters, and the initial state at the end. The build fails at
the first transition on this way whose action has no number, and nowhere else; a conflict of edges does not arise, since the
dispatch keys of a row are distinct. All stages have this form: a result, barring the first unnumbered transition
(`stateEdges_eq_barring`, `nodesOf_eq_barring`, `build_eq_barring`).
-/

namespace DispatchTree

/-- A row lists its answers in the order of all pairs. -/
theorem toList_row (row : Row) : row.toList = SymbolPair.all.filterMap fun p => row[p]?.map fun a => (p, a) := by
  have hsorted : SymbolPair.all.Pairwise fun p q => compare p q = .lt := by decide
  refine eq_of_pairwise_of_mem (R := fun x y => compare x.1 y.1 = .lt) (fun x y h => Std.OrientedCmp.not_lt_of_lt h)
    Std.ExtTreeMap.ordered_keys_toList ?_ ?_
  · refine List.pairwise_filterMap.2 (hsorted.imp fun {p q} hpq x hx y hy => ?_)
    obtain ⟨a, -, rfl⟩ := Option.map_eq_some_iff.1 hx
    obtain ⟨b, -, rfl⟩ := Option.map_eq_some_iff.1 hy
    exact hpq
  · rintro ⟨p, a⟩
    simp only [Std.ExtTreeMap.mem_toList_iff_getElem?_eq_some, List.mem_filterMap, Option.map_eq_some_iff, Prod.mk.injEq]
    constructor
    · exact fun h => ⟨p, SymbolPair.mem_all p, a, h, rfl, rfl⟩
    · rintro ⟨_, -, _, h, rfl, rfl⟩
      exact h

namespace Table

/-- The transitions of a state in the order of pairs. -/
def transitionsOf (t : Table) (state : String) : List (String × SymbolPair × Action) :=
  SymbolPair.all.filterMap fun p => (t.lookup state p).map fun a => (state, p, a)

/-- The transitions that a graph is built from: those of the state that each action enters, one action after the other, and then those
of the initial state. -/
def visits (t : Table) (actions : List Action) : List (String × SymbolPair × Action) :=
  (actions.map Action.next ++ [t.initial]).flatMap t.transitionsOf

/-- The first transition on the way through a table whose action is not among those that were interned. -/
def FirstUnnumbered (t : Table) (calls : List Action) (state : String) (p : SymbolPair) : Prop :=
  ∃ before a after, t.visits calls.eraseDups = before ++ (state, p, a) :: after ∧ (∀ e ∈ before, e.2.2 ∈ calls) ∧ a ∉ calls

/-- The transitions of a state are its answers. -/
theorem mem_transitionsOf {t : Table} {state s : String} {p : SymbolPair} {a : Action} :
    (s, p, a) ∈ t.transitionsOf state ↔ s = state ∧ t.lookup state p = some a := by
  simp only [transitionsOf, List.mem_filterMap, Option.map_eq_some_iff, Prod.mk.injEq]
  constructor
  · rintro ⟨_, -, _, h, rfl, rfl, rfl⟩
    exact ⟨rfl, h⟩
  · rintro ⟨rfl, h⟩
    exact ⟨p, SymbolPair.mem_all p, a, h, rfl, rfl, rfl⟩

/-- The way through a table leads to the initial state and to the states that the actions enter. -/
theorem mem_visits {t : Table} {actions : List Action} {state : String} {p : SymbolPair} {a : Action} :
    (state, p, a) ∈ t.visits actions ↔
      (state = t.initial ∨ ∃ b ∈ actions, b.next = state) ∧ t.lookup state p = some a := by
  simp only [visits, List.mem_flatMap, List.mem_append, List.mem_map, List.mem_singleton, mem_transitionsOf]
  constructor
  · rintro ⟨_, hstate, rfl, h⟩
    exact ⟨hstate.symm, h⟩
  · rintro ⟨hstate, h⟩
    exact ⟨state, hstate.symm, rfl, h⟩

/-- The transitions of a state are those of its row. -/
theorem transitionsOf_eq (t : Table) (state : String) :
    t.transitionsOf state = ((t.rows[state]?).getD ∅).toList.map fun e => (state, e.1, e.2) := by
  rw [toList_row, List.map_filterMap, transitionsOf]
  refine List.filterMap_congr fun p _ => ?_
  cases hrow : t.rows[state]? with
  | none => simp [lookup, hrow]
  | some row =>
    rw [lookup, hrow, Option.bind_some, Option.getD_some, Option.map_map]
    rfl

end Table

namespace Graph

/-- The first of some transitions whose action has no number. -/
def unnumbered? (c : Catalog) (es : List (String × SymbolPair × Action)) : Option (String × SymbolPair × Action) :=
  es.find? fun e => (c.get? e.2.2).isNone

/-- A result, barring a transition without a number that stands in its way. -/
def barring {α : Type} (missing : Option (String × SymbolPair × Action)) (x : α) : Except GraphFault α :=
  match missing with
  | some e => .error (.missingId e.1 e.2.1)
  | none => .ok x

/-- What two stages give together is barred by the first transition that bars one of them. -/
theorem barring_bind {α β γ : Type} (missing missing' : Option (String × SymbolPair × Action)) (x : α) (y : β) (f : α → β → γ) :
    (do
      let x ← barring missing x
      let y ← barring missing' y
      return f x y) = barring (missing.or missing') (f x y) := by
  cases missing with
  | some e => rfl
  | none =>
    cases missing' with
    | some e => rfl
    | none => rfl

theorem insertRow_append (c : Catalog) (state : String) (l l' : List (SymbolPair × Action)) :
    ∀ es : Edges, insertRow c state (l ++ l') es = (insertRow c state l es).bind (insertRow c state l') := by
  induction l with
  | nil => exact fun es => rfl
  | cons e l ih =>
    obtain ⟨p, a⟩ := e
    intro es
    rw [List.cons_append, insertRow, insertRow]
    cases c.get? a with
    | none => rfl
    | some target =>
      dsimp only
      cases insertKeys ⟨state, p⟩ target p.dispatchKeys es with
      | error f => rfl
      | ok es' => exact ih es'

/-- The edges of a state. -/
theorem stateEdges_eq_barring (t : Table) (c : Catalog) (state : String) :
    stateEdges t c state = barring (unnumbered? c (t.transitionsOf state)) (linksOf t c state) := by
  cases hmissing : unnumbered? c (t.transitionsOf state) with
  | none =>
    refine stateEdges_eq t c state fun p a h => ?_
    have hnum := List.find?_eq_none.1 hmissing (state, p, a) (Table.mem_transitionsOf.2 ⟨rfl, h⟩)
    simpa [Option.isSome_iff_ne_none] using hnum
  | some e =>
    obtain ⟨hnone, before, after, hlist, hbefore⟩ := List.find?_eq_some_iff_append.1 hmissing
    rw [Table.transitionsOf_eq] at hlist
    cases hrow : t.rows[state]? with
    | none =>
      have hempty : (∅ : Row).toList = [] := rfl
      simp [hrow, hempty] at hlist
    | some row =>
      rw [hrow, Option.getD_some] at hlist
      obtain ⟨front, back, hrowList, rfl, hback⟩ := List.map_eq_append_iff.1 hlist
      obtain ⟨⟨p, a⟩, back, rfl, rfl, rfl⟩ := List.map_eq_cons_iff.1 hback
      -- the transitions before the first unnumbered one are inserted without a conflict
      have hnum : ∀ e ∈ front, (c.get? e.2).isSome := by
        intro e he
        have hsome := hbefore (state, e.1, e.2) (List.mem_map.2 ⟨e, he, rfl⟩)
        simpa [Option.isSome_iff_ne_none] using hsome
      have hdistinct : (front.map (·.1)).Nodup := by
        have hkeys : (row.toList.map (·.1)).Nodup := List.pairwise_map.2 <|
          (Std.ExtTreeMap.distinct_keys_toList (t := row)).imp fun hne he => hne (Std.LawfulEqOrd.compare_eq_iff_eq.2 he)
        rw [hrowList, List.map_append] at hkeys
        exact hkeys.of_append_left
      obtain ⟨es, hes, -⟩ := insertRow_ok c state front ∅ hnum hdistinct (by simp)
      rw [stateEdges, hrow]
      dsimp only
      rw [hrowList, insertRow_append, hes]
      simp only [Except.bind, insertRow, Option.isNone_iff_eq_none.1 hnone]
      rfl

/-- The nodes of actions, the first of which has the given place. -/
theorem nodesOf_eq_barring (t : Table) (c : Catalog) (actions : List Action) : ∀ place : Nat,
    nodesOf t c place actions = barring (unnumbered? c ((actions.map Action.next).flatMap t.transitionsOf))
      (actions.mapIdx fun i a => ⟨Catalog.number (place + i), a.next, programOf t a, linksOf t c a.next⟩) := by
  induction actions with
  | nil => exact fun place => rfl
  | cons a actions ih =>
    intro place
    rw [List.map_cons, List.flatMap_cons, unnumbered?, List.find?_append]
    have hnode : nodeOf t c (Catalog.number place) a = barring (unnumbered? c (t.transitionsOf a.next))
        ⟨Catalog.number place, a.next, programOf t a, linksOf t c a.next⟩ := by
      rw [nodeOf, stateEdges_eq_barring]
      cases unnumbered? c (t.transitionsOf a.next) with
      | none => rfl
      | some e => rfl
    simp only [nodesOf, hnode, ih]
    rw [barring_bind, List.mapIdx_cons, unnumbered?, unnumbered?]
    simp only [Nat.add_zero, Nat.add_assoc, Nat.add_comm 1]

/-- The graph of a table and a catalog. -/
theorem build_eq_barring (t : Table) (c : Catalog) :
    build t c = barring (unnumbered? c (t.visits c.toList))
      ⟨t.prompt, t.initial, c.toList.mapIdx fun i a => ⟨Catalog.number i, a.next, programOf t a, linksOf t c a.next⟩,
        linksOf t c t.initial⟩ := by
  rw [Table.visits, List.flatMap_append, List.flatMap_singleton, unnumbered?, List.find?_append, build, nodesOf_eq_barring,
    stateEdges_eq_barring]
  simp only [Nat.zero_add]
  exact barring_bind _ _ _ _ fun nodes rootEdges => Graph.mk t.prompt t.initial nodes rootEdges

/-- A build fails at the first transition without a number. -/
theorem build_eq_error_iff (t : Table) (c : Catalog) (f : GraphFault) :
    build t c = .error f ↔ ∃ e, unnumbered? c (t.visits c.toList) = some e ∧ f = .missingId e.1 e.2.1 := by
  rw [build_eq_barring]
  cases unnumbered? c (t.visits c.toList) with
  | none => simp [barring]
  | some e => simp [barring, eq_comm]

end Graph

namespace Table

/-- The first unnumbered transition on the way through a table is one that bars the graph. -/
theorem firstUnnumbered_iff {t : Table} {calls : List Action} {state : String} {p : SymbolPair} :
    t.FirstUnnumbered calls state p ↔
      ∃ a, Graph.unnumbered? (Catalog.empty.internAll calls) (t.visits calls.eraseDups) = some (state, p, a) := by
  have hnumbered : ∀ e : String × SymbolPair × Action,
      (!((Catalog.empty.internAll calls).get? e.2.2).isNone) = true ↔ e.2.2 ∈ calls := by
    intro e
    rw [Bool.not_eq_true', ← Bool.not_eq_true, Option.isNone_iff_eq_none, Catalog.get?_internAll_empty_eq_none_iff, not_not]
  simp only [FirstUnnumbered, Graph.unnumbered?, List.find?_eq_some_iff_append, hnumbered, Option.isNone_iff_eq_none,
    Catalog.get?_internAll_empty_eq_none_iff]
  constructor
  · rintro ⟨before, a, after, hvisits, hbefore, ha⟩
    exact ⟨a, ha, before, after, hvisits, hbefore⟩
  · rintro ⟨a, ha, before, after, hvisits, hbefore⟩
    exact ⟨before, a, after, hvisits, hbefore, ha⟩

/-- Some transition on the way through a table is unnumbered exactly if there is a first one. -/
theorem exists_firstUnnumbered_iff {t : Table} {calls : List Action} :
    (∃ state p, t.FirstUnnumbered calls state p) ↔
      ∃ state p a, (state = t.initial ∨ ∃ b ∈ calls, b.next = state) ∧ t.lookup state p = some a ∧ a ∉ calls := by
  have hvisits : ∀ {state p a}, (state, p, a) ∈ t.visits calls.eraseDups ↔
      (state = t.initial ∨ ∃ b ∈ calls, b.next = state) ∧ t.lookup state p = some a := by
    intro state p a
    simp only [mem_visits, List.mem_eraseDups]
  constructor
  · rintro ⟨state, p, before, a, after, hlist, -, ha⟩
    obtain ⟨hstate, hlookup⟩ := hvisits.1 (hlist ▸ List.mem_append_right before List.mem_cons_self)
    exact ⟨state, p, a, hstate, hlookup, ha⟩
  · rintro ⟨state, p, a, hstate, hlookup, ha⟩
    have hfound : (Graph.unnumbered? (Catalog.empty.internAll calls) (t.visits calls.eraseDups)).isSome := by
      rw [Graph.unnumbered?, List.find?_isSome]
      refine ⟨(state, p, a), hvisits.2 ⟨hstate, hlookup⟩, ?_⟩
      rw [Option.isNone_iff_eq_none, Catalog.get?_internAll_empty_eq_none_iff]
      exact ha
    obtain ⟨⟨state', p', a'⟩, hfirst⟩ := Option.isSome_iff_exists.1 hfound
    exact ⟨state', p', firstUnnumbered_iff.2 ⟨a', hfirst⟩⟩

end Table

/-- The fault of a build is the first unnumbered transition. -/
theorem Graph.build_eq_error_iff_firstUnnumbered (t : Table) (calls : List Action) (f : GraphFault) :
    Graph.build t (Catalog.empty.internAll calls) = .error f ↔
      ∃ state p, f = .missingId state p ∧ t.FirstUnnumbered calls state p := by
  rw [build_eq_error_iff, Catalog.toList_internAll_empty]
  simp only [Table.firstUnnumbered_iff]
  constructor
  · rintro ⟨⟨state, p, a⟩, hfirst, rfl⟩
    exact ⟨state, p, rfl, a, hfirst⟩
  · rintro ⟨state, p, rfl, a, hfirst⟩
    exact ⟨(state, p, a), hfirst, rfl⟩

/-- A graph is not built exactly if some transition that is met on the way has an action without a number, and the fault names the
first one. -/
theorem build_fails_at_first_unnumbered (m : Machine) (calls : List Action) :
    ((∃ f, Graph.build m.complete (Catalog.empty.internAll calls) = .error f) ↔
      ∃ state p a, (state = m.complete.initial ∨ ∃ b ∈ calls, b.next = state) ∧ m.complete.lookup state p = some a ∧ a ∉ calls) ∧
    (∀ f, Graph.build m.complete (Catalog.empty.internAll calls) = .error f ↔
      ∃ state p, f = .missingId state p ∧ m.complete.FirstUnnumbered calls state p) ∧
    (∀ conflict, Graph.build m.complete (Catalog.empty.internAll calls) ≠ .error (.conflict conflict)) ∧
    ∃ plan, m.plan = .ok plan := by
  have hfault := Graph.build_eq_error_iff_firstUnnumbered m.complete calls
  refine ⟨?_, hfault, fun conflict h => ?_, _, m.plan_eq⟩
  · rw [← Table.exists_firstUnnumbered_iff]
    constructor
    · rintro ⟨f, hf⟩
      obtain ⟨state, p, -, hfirst⟩ := (hfault f).1 hf
      exact ⟨state, p, hfirst⟩
    · rintro ⟨state, p, hfirst⟩
      exact ⟨_, (hfault _).2 ⟨state, p, rfl, hfirst⟩⟩
  · obtain ⟨state, p, hconflict, -⟩ := (hfault _).1 h
    cases hconflict

end DispatchTree
