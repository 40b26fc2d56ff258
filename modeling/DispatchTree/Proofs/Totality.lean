import DispatchTree.Proofs.Files.Build
import DispatchTree.Proofs.Linking
import DispatchTree.Proofs.Renaming.Machine

/-!
# Totality completion

`Machine.Completes` says of a table what completing a machine is, without computing anything: its terminal states, its states, its
rows, and that every action leads to a state of the table again. There is one such table, and it is the completed table of the machine
(`totality_completion`). That table, taken for a machine, is completed by itself (`completes_spelledOut`), so that spelling out what a
machine leaves to the sink changes nothing (`completion_idempotent`).
-/

namespace DispatchTree

/-- The states of a table are those with a row and the terminal ones. -/
theorem Table.mem_states (t : Table) (state : String) : state ∈ t.states ↔ state ∈ t.rows ∨ t.isTerminal state = true := by
  simp only [Table.states, Std.ExtTreeSet.mem_ofList, List.contains_iff_mem, List.mem_append, Std.ExtTreeMap.mem_keys,
    Table.isTerminal, Std.ExtTreeMap.mem_iff_contains]

/-- Lists in the same strict order with the same members are equal. -/
theorem eq_of_pairwise_of_mem {α : Type} {R : α → α → Prop} {l l' : List α} (hasymm : ∀ x y, R x y → ¬ R y x)
    (h : l.Pairwise R) (h' : l'.Pairwise R) (hmem : ∀ x, x ∈ l ↔ x ∈ l') : l = l' := by
  have hnodup : ∀ {l : List α}, l.Pairwise R → l.Nodup := by
    refine fun h => h.imp fun {x y} hxy he => ?_
    rw [he] at hxy
    exact hasymm y y hxy hxy
  refine List.Perm.eq_of_pairwise (fun x y _ _ hxy hyx => absurd hyx (hasymm x y hxy)) h h' ?_
  exact (List.perm_ext_iff_of_nodup (hnodup h) (hnodup h')).2 hmem

/-- A row that answers every pair has the nine pairs for keys, in their order. -/
theorem keys_eq_allPairs {row : Row} (h : ∀ read, read ∈ row) : row.keys = SymbolPair.all := by
  have hsorted : SymbolPair.all.Pairwise fun p q => compare p q = .lt := by decide
  refine eq_of_pairwise_of_mem (R := fun p q => compare p q = .lt) (fun p q hpq => Std.OrientedCmp.not_lt_of_lt hpq)
    Std.ExtTreeMap.ordered_keys hsorted fun p => ?_
  simp [h p, SymbolPair.mem_all]

namespace Machine

/-- The states of a machine, by the five ways in which it can come to mention one. -/
inductive Mentions (m : Machine) : String → Prop
  | initial : Mentions m m.initial
  | sink : Mentions m sinkState
  | terminal {state : String} (h : state ∈ m.halts) : Mentions m state
  | row {state : String} (h : state ∈ m.transitions) : Mentions m state
  | next {state : String} {read : SymbolPair} {a : Action} (h : m.action? state read = some a) : Mentions m a.next

/-- A table is the totality completion of a machine. -/
structure Completes (m : Machine) (t : Table) : Prop where
  initial : t.initial = m.initial
  prompt : t.prompt = m.prompt
  terminal : ∀ state, t.isTerminal state = true ↔ state ∈ m.halts ∨ state = sinkState
  declared : ∀ (state message : String), m.halts[state]? = some message → t.halts[state]? = some message
  /-- The sink has its own message only if the machine does not declare it. -/
  sink : sinkState ∉ m.halts → t.halts[sinkState]? = some sinkMessage
  states : ∀ state, state ∈ t.states ↔ m.Mentions state
  rows : ∀ state, state ∈ t.rows ↔ state ∈ t.states ∧ t.isTerminal state = false
  pairs : ∀ (state : String) (row : Row), t.rows[state]? = some row → row.keys = SymbolPair.all
  lookup : ∀ state ∈ t.rows, ∀ read, t.lookup state read = some ((m.action? state read).getD .invalid)
  /-- No action leads out of the table. -/
  closed : ∀ (state : String) (row : Row) (read : SymbolPair) (a : Action), t.rows[state]? = some row → row[read]? = some a →
    t.isTerminal a.next = true ∨ a.next ∈ t.rows

variable {m : Machine} {t : Table} {state : String}

/-! ## The completed table -/

/-- An action stands in the row of its state. -/
theorem mem_transitions_of_action? {read : SymbolPair} {a : Action} (h : m.action? state read = some a) :
    ∃ row, m.transitions[state]? = some row ∧ row[read]? = some a := by
  unfold action? Machine.row at h
  cases hrow : m.transitions[state]? with
  | none => simp [hrow] at h
  | some row =>
    rw [hrow] at h
    exact ⟨row, rfl, h⟩

/-- The states that are mentioned are those that the machine collects. -/
theorem mentions_iff (m : Machine) (state : String) : m.Mentions state ↔ state ∈ m.mentioned := by
  rw [mem_mentioned]
  constructor
  · intro h
    cases h with
    | initial => exact .inl rfl
    | sink => exact .inr (.inl rfl)
    | terminal h => exact .inr (.inr (.inl h))
    | row h => exact .inr (.inr (.inr ⟨state, _, Std.ExtTreeMap.getElem?_eq_some_getElem h, .inl rfl⟩))
    | next h =>
      obtain ⟨row, hrow, ha⟩ := mem_transitions_of_action? h
      exact .inr (.inr (.inr ⟨_, row, hrow, .inr ⟨_, _, ha, rfl⟩⟩))
  · rintro (rfl | rfl | h | ⟨s, row, hrow, rfl | ⟨read, a, ha, rfl⟩⟩)
    · exact .initial
    · exact .sink
    · exact .terminal h
    · exact .row (Std.ExtTreeMap.mem_iff_isSome_getElem?.2 (by rw [hrow]; rfl))
    · have haction : m.action? s read = some a := by
        rw [action?, Machine.row, hrow]
        exact ha
      exact .next haction

/-- The states that have a row are those that are mentioned and not stopped in. -/
theorem mem_complete_rows (m : Machine) (state : String) :
    state ∈ m.complete.rows ↔ state ∈ m.mentioned ∧ m.stops state = false := by
  rw [Std.ExtTreeMap.mem_iff_isSome_getElem?, complete_rows_getElem?, ← mem_rowStates]
  split
  · rename_i h
    simp [h]
  · rename_i h
    simp [h]

/-- The row of a state of the completed table is its full row. -/
theorem row_eq_fullRow {row : Row} (h : m.complete.rows[state]? = some row) : row = m.fullRow state := by
  rw [complete_rows_getElem?] at h
  split at h
  · exact (Option.some.inj h).symm
  · cases h

/-- A state in which the machine stops is mentioned. -/
theorem mentioned_of_stops (h : m.stops state = true) : state ∈ m.mentioned := by
  rw [stops, Bool.or_eq_true, beq_iff_eq] at h
  rcases h with h | rfl
  · exact (m.mem_mentioned state).2 (.inr (.inr (.inl h)))
  · exact m.sink_mem_mentioned

/-- The completed table has a row or a message for every state that is mentioned. -/
theorem mem_complete_states (m : Machine) (state : String) : state ∈ m.complete.states ↔ state ∈ m.mentioned := by
  rw [Table.mem_states, mem_complete_rows, complete_isTerminal]
  constructor
  · rintro (⟨h, -⟩ | h)
    · exact h
    · exact mentioned_of_stops h
  · intro h
    cases hstops : m.stops state with
    | false => exact .inl ⟨h, rfl⟩
    | true => exact .inr rfl

/-- The completed table of a machine is its totality completion. -/
theorem completes_complete (m : Machine) : m.Completes m.complete where
  initial := rfl
  prompt := rfl
  terminal state := by
    rw [complete_isTerminal, stops, Bool.or_eq_true, beq_iff_eq]
    rfl
  declared state message h := by
    refine (m.terminals_getElem? state).trans ?_
    rw [message?, h, Option.some_or]
  sink h := by
    refine (m.terminals_getElem? sinkState).trans ?_
    rw [message?, Std.ExtTreeMap.getElem?_eq_none h, Option.none_or, if_pos rfl]
  states state := by rw [mem_complete_states, mentions_iff]
  rows state := by rw [mem_complete_rows, mem_complete_states, complete_isTerminal]
  pairs state row h := by
    refine keys_eq_allPairs fun read => ?_
    rw [Std.ExtTreeMap.mem_iff_isSome_getElem?, row_eq_fullRow h, fullRow_getElem?]
    rfl
  lookup state h read := by
    rw [mem_complete_rows] at h
    rw [m.complete_lookup h.1, step?, h.2]
    rfl
  closed state row read a hrow ha := by
    -- what a full row answers is a rule of the machine or the way to the sink, and both lead to a state that is mentioned
    have hnext : a.next ∈ m.mentioned := by
      rw [row_eq_fullRow hrow, fullRow_getElem?, Option.some.injEq] at ha
      cases hrule : m.action? state read with
      | none =>
        rw [hrule, Option.getD_none] at ha
        exact ha ▸ m.sink_mem_mentioned
      | some b =>
        rw [hrule, Option.getD_some] at ha
        exact ha ▸ m.next_mem_mentioned_of_action? hrule
    rw [complete_isTerminal, mem_complete_rows]
    cases hstops : m.stops a.next with
    | false => exact .inr ⟨hnext, rfl⟩
    | true => exact .inl rfl

/-! ## There is no other -/

namespace Completes

/-- The messages of a completion are those of the machine and the sink's. -/
theorem halts_getElem? (h : m.Completes t) (state : String) : t.halts[state]? = m.message? state := by
  rw [message?]
  cases hmessage : m.halts[state]? with
  | some message => rw [h.declared state message hmessage, Option.some_or]
  | none =>
    have hnot : state ∉ m.halts := by
      rw [Std.ExtTreeMap.mem_iff_isSome_getElem?, hmessage]
      simp
    rw [Option.none_or]
    split
    · rename_i hsink
      subst hsink
      exact h.sink hnot
    · rename_i hsink
      refine Std.ExtTreeMap.getElem?_eq_none fun hmem => ?_
      rcases (h.terminal state).1 hmem with hdeclared | hdeclared
      · exact hnot hdeclared
      · exact hsink hdeclared

/-- The rows of a completion are the machine's, with the way to the sink where there is no rule. -/
theorem row_getElem? (h : m.Completes t) {row : Row} (hrow : t.rows[state]? = some row) (read : SymbolPair) :
    row[read]? = some ((m.action? state read).getD .invalid) := by
  have hlookup := h.lookup state (Std.ExtTreeMap.mem_iff_isSome_getElem?.2 (by rw [hrow]; rfl)) read
  rwa [Table.lookup, hrow, Option.bind_some] at hlookup

/-- Two totality completions of a machine have the same rows. -/
theorem rows_eq {t' : Table} (h : m.Completes t) (h' : m.Completes t') : t.rows = t'.rows := by
  have hterminal : ∀ state, t.isTerminal state = t'.isTerminal state := fun state => by
    rw [Bool.eq_iff_iff, h.terminal, h'.terminal]
  have hmem : ∀ state, state ∈ t.rows ↔ state ∈ t'.rows := fun state => by
    rw [h.rows, h'.rows, h.states, h'.states, hterminal]
  refine Std.ExtTreeMap.ext_getElem? fun {state} => ?_
  have hsome := hmem state
  rw [Std.ExtTreeMap.mem_iff_isSome_getElem?, Std.ExtTreeMap.mem_iff_isSome_getElem?] at hsome
  cases hrow : t.rows[state]? with
  | none =>
    cases hrow' : t'.rows[state]? with
    | none => rfl
    | some row' => simp [hrow, hrow'] at hsome
  | some row =>
    cases hrow' : t'.rows[state]? with
    | none => simp [hrow, hrow'] at hsome
    | some row' =>
      have hrows : row = row' := Std.ExtTreeMap.ext_getElem? fun {read} => by rw [h.row_getElem? hrow, h'.row_getElem? hrow']
      rw [hrows]

/-- A machine has one totality completion. -/
theorem unique {t' : Table} (h : m.Completes t) (h' : m.Completes t') : t = t' := by
  have hhalts : t.halts = t'.halts := Std.ExtTreeMap.ext_getElem? fun {state} => by rw [h.halts_getElem?, h'.halts_getElem?]
  have hrows := h.rows_eq h'
  have hinitial := h.initial.trans h'.initial.symm
  have hprompt := h.prompt.trans h'.prompt.symm
  cases t
  cases t'
  rw [Table.mk.injEq]
  exact ⟨hinitial, hprompt, hhalts, hrows⟩

end Completes

/-! ## Completing what is complete -/

/-- The machine with its completed table spelled out: all terminal states with their messages, and all rows. -/
def spelledOut (m : Machine) : Machine := ⟨m.initial, m.prompt, m.complete.halts, m.complete.rows⟩

/-- A totality completion is that of the machine it spells out. -/
theorem completes_spelledOut (m : Machine) : m.spelledOut.Completes m.complete := by
  have h := m.completes_complete
  refine ⟨rfl, rfl, fun state => ?_, fun _ _ hmessage => hmessage, fun hsink => ?_, fun state => ?_, h.rows, h.pairs,
    fun state hstate read => ?_, h.closed⟩
  · constructor
    · exact .inl
    · rintro (hmem | rfl)
      · exact hmem
      · exact (h.terminal sinkState).2 (.inr rfl)
  · exact absurd ((h.terminal sinkState).2 (.inr rfl)) hsink
  · rw [Table.mem_states]
    constructor
    · rintro (hrow | hterminal)
      · exact .row hrow
      · exact .terminal hterminal
    · rw [← Table.mem_states]
      intro hmentions
      cases hmentions with
      | initial => exact (h.states _).2 .initial
      | sink => exact (h.states _).2 .sink
      | terminal hmem => exact (Table.mem_states _ _).2 (.inr hmem)
      | row hmem => exact (Table.mem_states _ _).2 (.inl hmem)
      | next haction =>
        obtain ⟨row, hrow, ha⟩ := mem_transitions_of_action? haction
        exact (Table.mem_states _ _).2 (h.closed _ row _ _ hrow ha).symm
  · obtain ⟨row, hrow⟩ := Option.isSome_iff_exists.1 (Std.ExtTreeMap.mem_iff_isSome_getElem?.1 hstate)
    have hread := h.row_getElem? hrow read
    have haction : m.spelledOut.action? state read = row[read]? := by
      rw [action?, Machine.row]
      exact congrArg (fun o : Option Row => (o.getD ∅)[read]?) hrow
    rw [haction, hread, Table.lookup, hrow, Option.bind_some, hread, Option.getD_some]

/-- Machines with one completed table are compiled to one plan. -/
theorem plan_congr {m m' : Machine} (h : m.complete = m'.complete) : m.plan = m'.plan := by rw [plan, plan, h]

end Machine

/-- The completed table of a machine is its totality completion, and nothing else is. -/
theorem totality_completion (m : Machine) (t : Table) : m.Completes t ↔ t = m.complete := by
  constructor
  · exact fun h => h.unique m.completes_complete
  · rintro rfl
    exact m.completes_complete

/-- Completing is idempotent: the machine that has all of its completed table spelled out has the same completed table, hence the same
numbers, the same graph and the same fingerprint on every display with columns. -/
theorem completion_idempotent (m : Machine) :
    m.spelledOut.complete = m.complete ∧
      ∃ plan plan', m.plan = .ok plan ∧ m.spelledOut.plan = .ok plan' ∧ plan.catalog = plan'.catalog ∧ plan.graph = plan'.graph ∧
        ∀ d : Display, 0 < d.columns → ∃ text, plan.graph.fingerprint d = .ok text ∧ plan'.graph.fingerprint d = .ok text := by
  have hcomplete : m.spelledOut.complete = m.complete :=
    (m.spelledOut.completes_complete).unique m.completes_spelledOut
  refine ⟨hcomplete, _, _, m.plan_eq, (Machine.plan_congr hcomplete).trans m.plan_eq, rfl, rfl, fun d hd => ?_⟩
  obtain ⟨text, htext⟩ := Graph.exists_fingerprint hd m.graph
  exact ⟨text, htext, htext⟩

/-- A machine in which the sink has a rule and a message of its own, and a state is entered that has no rules. -/
def sinking : Machine :=
  ((Machine.new "A").halt sinkState "gone").rule "A" ⟨.one, .zero⟩ ⟨"B", .idle, .idle⟩ |>.rule sinkState ⟨.zero, .zero⟩ ⟨"C", .idle, .idle⟩

/-- Spelling out `sinking` adds rules, but changes nothing that is shown at four columns. -/
theorem completion_idempotent_sinking :
    sinking.spelledOut ≠ sinking ∧ ∃ plan plan', sinking.plan = .ok plan ∧ sinking.spelledOut.plan = .ok plan' ∧
      ∃ text, plan.graph.fingerprint ⟨4⟩ = .ok text ∧ plan'.graph.fingerprint ⟨4⟩ = .ok text := by
  obtain ⟨-, plan, plan', hplan, hplan', -, -, hfingerprint⟩ := completion_idempotent sinking
  exact ⟨by decide +kernel, plan, plan', hplan, hplan', hfingerprint ⟨4⟩ (by decide)⟩

end DispatchTree
