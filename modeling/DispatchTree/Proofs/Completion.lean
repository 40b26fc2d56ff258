import DispatchTree.Table

/-!
# What a completed table answers

Statements about `Machine.complete`, row by row: which states are terminal, which states have a row, and what a row answers.
`Machine.step?` is the reference: the action a machine takes, read off the machine and not off its table. In every state that the
machine mentions the completed table and the reference agree (`complete_lookup`), and every action leads to such a state again
(`next_mem_mentioned`).
-/

namespace DispatchTree

/-- A map that is built from a function on distinct keys has the function's value at each of them. -/
theorem getElem?_ofList_map {α β : Type} [Ord α] [Std.TransOrd α] [Std.LawfulEqOrd α] [DecidableEq α] {ks : List α}
    (hd : ks.Nodup) (f : α → β) (k : α) :
    (Std.ExtTreeMap.ofList (ks.map fun k => (k, f k)))[k]? = if k ∈ ks then some (f k) else none := by
  by_cases hk : k ∈ ks
  · rw [if_pos hk]
    refine Std.ExtTreeMap.getElem?_ofList_of_mem (k := k) (Std.LawfulEqOrd.compare_eq_iff_eq.2 rfl) ?_ ?_
    · rw [List.pairwise_map]
      exact hd.imp fun hne he => hne (Std.LawfulEqOrd.compare_eq_iff_eq.1 he)
    · exact List.mem_map.mpr ⟨k, hk, rfl⟩
  · rw [if_neg hk]
    apply Std.ExtTreeMap.getElem?_ofList_of_contains_eq_false
    simpa using hk

namespace Machine

/-! ## The reference -/

/-- Whether a machine stops in a state: a state it declares terminal, or the sink. -/
def stops (m : Machine) (state : String) : Bool := m.halts.contains state || state == sinkState

/-- The action a machine takes in a state on a pair: none where it stops, and the way to the sink where it has no rule. -/
def step? (m : Machine) (state : String) (read : SymbolPair) : Option Action :=
  if m.stops state then none else some ((m.action? state read).getD .invalid)

/-- The message of a state in which a machine stops: its own, or the sink's if the machine has none for the sink. -/
def message? (m : Machine) (state : String) : Option String :=
  m.halts[state]?.or (if state = sinkState then some sinkMessage else none)

/-- A machine stops in the states that have a message. -/
theorem message?_isSome (m : Machine) (state : String) : (m.message? state).isSome = m.stops state := by
  unfold message? stops
  rw [Option.isSome_or, ← Std.ExtTreeMap.isSome_getElem?_eq_contains]
  by_cases h : state = sinkState <;> simp [h]

/-! ## Terminal states -/

/-- The terminal states of the completed table have the messages of the reference. -/
theorem terminals_getElem? (m : Machine) (state : String) : m.terminals[state]? = m.message? state := by
  unfold terminals message?
  rw [Std.ExtTreeMap.getElem?_insertIfNew]
  simp only [Std.LawfulEqOrd.compare_eq_iff_eq]
  by_cases h : state = sinkState
  · subst h
    by_cases hm : sinkState ∈ m.halts
    · simp [hm]
    · simp [hm]
  · simp [h, Ne.symm h]

/-- The terminal states of the completed table are those in which the machine stops. -/
theorem terminals_contains (m : Machine) (state : String) : m.terminals.contains state = m.stops state := by
  rw [← message?_isSome, ← terminals_getElem?, Std.ExtTreeMap.isSome_getElem?_eq_contains]

/-- The completed machine is terminal in the states in which the machine stops. -/
theorem complete_isTerminal (m : Machine) (state : String) : m.complete.isTerminal state = m.stops state :=
  m.terminals_contains state

/-! ## Rows -/

theorem nodup_allPairs : SymbolPair.all.Nodup := by decide

/-- A full row answers every pair: as the machine does, and with the way to the sink where it has no rule. -/
theorem fullRow_getElem? (m : Machine) (state : String) (p : SymbolPair) :
    (m.fullRow state)[p]? = some ((m.action? state p).getD .invalid) := by
  unfold fullRow
  rw [getElem?_ofList_map nodup_allPairs, if_pos (SymbolPair.mem_all p)]

/-- The states that get a row are those the machine mentions and does not stop in. -/
theorem mem_rowStates (m : Machine) (state : String) :
    state ∈ m.rowStates ↔ state ∈ m.mentioned ∧ m.stops state = false := by
  simp [rowStates, terminals_contains]

theorem nodup_rowStates (m : Machine) : m.rowStates.Nodup := by
  unfold rowStates
  apply List.Pairwise.filter
  exact (Std.ExtTreeSet.distinct_toList (t := m.mentioned)).imp fun h he => h (Std.LawfulEqOrd.compare_eq_iff_eq.2 he)

/-- The row of a state in the completed table. -/
theorem complete_rows_getElem? (m : Machine) (state : String) :
    m.complete.rows[state]? = if state ∈ m.rowStates then some (m.fullRow state) else none :=
  getElem?_ofList_map m.nodup_rowStates m.fullRow state

/-- In a state the machine mentions, the completed table answers as the reference does. -/
theorem complete_lookup (m : Machine) {state : String} (h : state ∈ m.mentioned) (p : SymbolPair) :
    m.complete.lookup state p = m.step? state p := by
  unfold Table.lookup step?
  rw [complete_rows_getElem?]
  by_cases hs : m.stops state = true
  · have hn : state ∉ m.rowStates := fun hm => by simp [((m.mem_rowStates state).1 hm).2] at hs
    simp [hn, hs]
  · have hs' : m.stops state = false := by simpa using hs
    simp [(m.mem_rowStates state).2 ⟨h, hs'⟩, hs', fullRow_getElem?]

/-! ## The states a machine mentions -/

/-- A state is mentioned if it is initial, the sink or terminal, or if it has a row or is entered by an action of one. -/
theorem mem_mentioned (m : Machine) (state : String) :
    state ∈ m.mentioned ↔ state = m.initial ∨ state = sinkState ∨ state ∈ m.halts ∨
      ∃ (s : String) (row : Row), m.transitions[s]? = some row ∧
        (state = s ∨ ∃ (p : SymbolPair) (a : Action), row[p]? = some a ∧ state = a.next) := by
  simp only [mentioned, Std.ExtTreeSet.mem_ofList, List.contains_iff_mem, List.mem_append, List.mem_cons,
    List.mem_flatMap, List.mem_map, Std.ExtTreeMap.mem_keys, Prod.exists,
    Std.ExtTreeMap.mem_toList_iff_getElem?_eq_some]
  constructor
  · rintro ((h | h | h) | ⟨s, row, hr, h | ⟨p, a, ha, hn⟩⟩)
    · exact Or.inl h
    · exact Or.inr (Or.inl h)
    · exact Or.inr (Or.inr (Or.inl h))
    · exact Or.inr (Or.inr (Or.inr ⟨s, row, hr, Or.inl h⟩))
    · exact Or.inr (Or.inr (Or.inr ⟨s, row, hr, Or.inr ⟨p, a, ha, hn.symm⟩⟩))
  · rintro (h | h | h | ⟨s, row, hr, h | ⟨p, a, ha, hn⟩⟩)
    · exact Or.inl (Or.inl h)
    · exact Or.inl (Or.inr (Or.inl h))
    · exact Or.inl (Or.inr (Or.inr h))
    · exact Or.inr ⟨s, row, hr, Or.inl h⟩
    · exact Or.inr ⟨s, row, hr, Or.inr ⟨p, a, ha, hn.symm⟩⟩

/-- The initial state is mentioned, even if there are no rules. -/
theorem initial_mem_mentioned (m : Machine) : m.initial ∈ m.mentioned := (m.mem_mentioned _).2 (Or.inl rfl)

/-- The state entered by a rule is mentioned. -/
theorem next_mem_mentioned_of_action? (m : Machine) {state : String} {p : SymbolPair} {a : Action}
    (h : m.action? state p = some a) : a.next ∈ m.mentioned := by
  unfold action? row at h
  cases hr : m.transitions[state]? with
  | none => simp [hr] at h
  | some row =>
    rw [hr] at h
    exact (m.mem_mentioned _).2 (Or.inr (Or.inr (Or.inr ⟨state, row, hr, Or.inr ⟨p, a, h, rfl⟩⟩)))

/-- Every action the reference takes enters a state that is mentioned. -/
theorem next_mem_mentioned (m : Machine) {state : String} {p : SymbolPair} {a : Action} (h : m.step? state p = some a) :
    a.next ∈ m.mentioned := by
  unfold step? at h
  split at h
  · cases h
  · cases ha : m.action? state p with
    | none =>
      rw [ha] at h
      cases h
      exact (m.mem_mentioned _).2 (Or.inr (Or.inl rfl))
    | some b =>
      rw [ha] at h
      cases h
      exact m.next_mem_mentioned_of_action? ha

end Machine

end DispatchTree
