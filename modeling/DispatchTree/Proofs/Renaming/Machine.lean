import DispatchTree.Proofs.Completion

/-!
# Renaming the states of a machine

The names of states mean nothing to a machine, apart from the name of the sink. A renaming that keeps the sink and that sends
different states of a machine to different names gives a machine that takes the same steps (`step?_rename`), stops in the same states
with the same messages (`message?_rename`), and mentions the renamed states (`mem_mentioned_rename`).
-/

namespace DispatchTree

/-- The action that enters the renamed state. -/
def Action.rename (r : String → String) (a : Action) : Action := { a with next := r a.next }

/-- A map whose keys are renamed and whose values are changed. -/
def renameKeys {β γ : Type} (r : String → String) (f : β → γ) (t : Std.ExtTreeMap String β) : Std.ExtTreeMap String γ :=
  .ofList (t.toList.map fun e => (r e.1, f e.2))

/-- The machine with renamed states. -/
def Machine.rename (r : String → String) (m : Machine) : Machine where
  initial := r m.initial
  prompt := m.prompt
  halts := renameKeys r id m.halts
  transitions := renameKeys r (Std.ExtTreeMap.map fun _ => Action.rename r) m.transitions

/-- A renaming of the states that a machine mentions: it keeps them apart, and it keeps the sink. -/
structure Machine.Renames (m : Machine) (r : String → String) : Prop where
  injective : ∀ s ∈ m.mentioned, ∀ t ∈ m.mentioned, r s = r t → s = t
  sink : r sinkState = sinkState

/-! ## Renamed maps -/

section Keys

variable {β γ : Type} {m : Machine} {r : String → String} {f : β → γ} {t : Std.ExtTreeMap String β}

/-- A map from states to anything, renamed: the changed values stand under the new names, and there is nothing else. -/
theorem Machine.Renames.keys_eq_some (h : m.Renames r) (ht : ∀ a v, t[a]? = some v → a ∈ m.mentioned) {k : String} {w : γ} :
    (renameKeys r f t)[k]? = some w ↔ ∃ s v, t[s]? = some v ∧ k = r s ∧ w = f v := by
  have hvalue : ∀ {s v}, t[s]? = some v → (renameKeys r f t)[r s]? = some (f v) := by
    intro s v hv
    refine Std.ExtTreeMap.getElem?_ofList_of_mem (k := r s) (Std.LawfulEqOrd.compare_eq_iff_eq.2 rfl) ?_ ?_
    · rw [List.pairwise_map]
      refine (Std.ExtTreeMap.distinct_keys_toList (t := t)).imp_of_mem fun {a b} ha hb hne he => hne ?_
      have ha' := ht a.1 a.2 (Std.ExtTreeMap.mem_toList_iff_getElem?_eq_some.1 ha)
      have hb' := ht b.1 b.2 (Std.ExtTreeMap.mem_toList_iff_getElem?_eq_some.1 hb)
      rw [h.injective a.1 ha' b.1 hb' (Std.LawfulEqOrd.compare_eq_iff_eq.1 he)]
      exact Std.LawfulEqOrd.compare_eq_iff_eq.2 rfl
    · exact List.mem_map.2 ⟨(s, v), Std.ExtTreeMap.mem_toList_iff_getElem?_eq_some.2 hv, rfl⟩
  constructor
  · intro hw
    by_cases hk : ∃ e ∈ t.toList, r e.1 = k
    · obtain ⟨⟨s, v⟩, he, rfl⟩ := hk
      have hv := Std.ExtTreeMap.mem_toList_iff_getElem?_eq_some.1 he
      rw [hvalue hv] at hw
      exact ⟨s, v, hv, rfl, (Option.some.inj hw).symm⟩
    · have hnone : (renameKeys r f t)[k]? = none := by
        apply Std.ExtTreeMap.getElem?_ofList_of_contains_eq_false
        simpa [List.map_map] using hk
      rw [hnone] at hw
      cases hw
  · rintro ⟨s, v, hv, rfl, rfl⟩
    exact hvalue hv

/-- What a state that is mentioned leads to under its new name. -/
theorem Machine.Renames.keys_getElem? (h : m.Renames r) (ht : ∀ a v, t[a]? = some v → a ∈ m.mentioned) {s : String}
    (hs : s ∈ m.mentioned) : (renameKeys r f t)[r s]? = t[s]?.map f := by
  refine Option.ext fun w => ?_
  rw [h.keys_eq_some ht, Option.map_eq_some_iff]
  constructor
  · rintro ⟨a, v, hv, hk, rfl⟩
    obtain rfl := h.injective s hs a (ht a v hv) hk
    exact ⟨v, hv, rfl⟩
  · rintro ⟨v, hv, rfl⟩
    exact ⟨s, v, hv, rfl, rfl⟩

end Keys

namespace Machine

variable {m : Machine} {r : String → String}

/-! ## What is mentioned -/

/-- A state that has a message is mentioned. -/
theorem mem_mentioned_of_halts (s message : String) (h : m.halts[s]? = some message) : s ∈ m.mentioned := by
  have hmem : s ∈ m.halts := Std.ExtTreeMap.mem_iff_isSome_getElem?.2 (by rw [h]; rfl)
  exact (m.mem_mentioned s).2 (.inr (.inr (.inl hmem)))

/-- A state that has a row is mentioned. -/
theorem mem_mentioned_of_transitions (s : String) (row : Row) (h : m.transitions[s]? = some row) : s ∈ m.mentioned :=
  (m.mem_mentioned s).2 (.inr (.inr (.inr ⟨s, row, h, .inl rfl⟩)))

/-- The sink is mentioned, whether rules lead there or not. -/
theorem sink_mem_mentioned (m : Machine) : sinkState ∈ m.mentioned := (m.mem_mentioned _).2 (.inr (.inl rfl))

/-- A renamed state has the message of the state. -/
theorem Renames.halts_rename (h : m.Renames r) {s : String} (hs : s ∈ m.mentioned) :
    (m.rename r).halts[r s]? = m.halts[s]? := by
  have hkeys := h.keys_getElem? (f := id) mem_mentioned_of_halts hs
  rwa [Option.map_id] at hkeys

/-- A renamed state has the row of the state with renamed actions. -/
theorem Renames.transitions_rename (h : m.Renames r) {s : String} (hs : s ∈ m.mentioned) :
    (m.rename r).transitions[r s]? = m.transitions[s]?.map (Std.ExtTreeMap.map fun _ => Action.rename r) :=
  h.keys_getElem? mem_mentioned_of_transitions hs

/-- The renamed machine mentions the renamed states. -/
theorem Renames.mem_mentioned_rename (h : m.Renames r) {k : String} :
    k ∈ (m.rename r).mentioned ↔ ∃ s ∈ m.mentioned, k = r s := by
  rw [mem_mentioned]
  constructor
  · rintro (rfl | rfl | hk | ⟨s', row', hrow, hk⟩)
    · exact ⟨m.initial, m.initial_mem_mentioned, rfl⟩
    · exact ⟨sinkState, m.sink_mem_mentioned, h.sink.symm⟩
    · obtain ⟨message, hmessage⟩ := Option.isSome_iff_exists.1 (Std.ExtTreeMap.mem_iff_isSome_getElem?.1 hk)
      obtain ⟨s, v, hs, rfl, -⟩ := (h.keys_eq_some mem_mentioned_of_halts).1 hmessage
      exact ⟨s, mem_mentioned_of_halts s v hs, rfl⟩
    · obtain ⟨s, row, hs, rfl, rfl⟩ := (h.keys_eq_some mem_mentioned_of_transitions).1 hrow
      rcases hk with rfl | ⟨p, b, hb, rfl⟩
      · exact ⟨s, mem_mentioned_of_transitions s row hs, rfl⟩
      · rw [Std.ExtTreeMap.getElem?_map, Option.map_eq_some_iff] at hb
        obtain ⟨a, ha, rfl⟩ := hb
        exact ⟨a.next, (m.mem_mentioned _).2 (.inr (.inr (.inr ⟨s, row, hs, .inr ⟨p, a, ha, rfl⟩⟩))), rfl⟩
  · rintro ⟨s, hs, rfl⟩
    rcases (m.mem_mentioned s).1 hs with rfl | rfl | hhalt | ⟨s', row, hrow, rfl | ⟨p, a, ha, rfl⟩⟩
    · exact .inl rfl
    · exact .inr (.inl h.sink)
    · refine .inr (.inr (.inl (Std.ExtTreeMap.mem_iff_isSome_getElem?.2 ?_)))
      rw [h.halts_rename hs]
      exact Std.ExtTreeMap.mem_iff_isSome_getElem?.1 hhalt
    · refine .inr (.inr (.inr ⟨r s, row.map fun _ => Action.rename r, ?_, .inl rfl⟩))
      rw [h.transitions_rename hs, hrow]
      rfl
    · refine .inr (.inr (.inr ⟨r s', row.map fun _ => Action.rename r, ?_, .inr ⟨p, a.rename r, ?_, rfl⟩⟩))
      · rw [h.transitions_rename (mem_mentioned_of_transitions s' row hrow), hrow]
        rfl
      · rw [Std.ExtTreeMap.getElem?_map, ha]
        rfl

/-! ## What the renamed machine does -/

variable {s : String}

/-- No other state is renamed to the sink. -/
theorem Renames.eq_sink_iff (h : m.Renames r) (hs : s ∈ m.mentioned) : r s = sinkState ↔ s = sinkState := by
  constructor
  · intro hr
    exact h.injective s hs _ m.sink_mem_mentioned (hr.trans h.sink.symm)
  · rintro rfl
    exact h.sink

/-- The renamed machine has the messages of the machine. -/
theorem Renames.message?_rename (h : m.Renames r) (hs : s ∈ m.mentioned) : (m.rename r).message? (r s) = m.message? s := by
  unfold message?
  rw [h.halts_rename hs]
  simp only [h.eq_sink_iff hs]

/-- The renamed machine stops in the renamed states. -/
theorem Renames.stops_rename (h : m.Renames r) (hs : s ∈ m.mentioned) : (m.rename r).stops (r s) = m.stops s := by
  rw [← message?_isSome, ← message?_isSome, h.message?_rename hs]

/-- The renamed machine takes the renamed actions. -/
theorem Renames.action?_rename (h : m.Renames r) (hs : s ∈ m.mentioned) (p : SymbolPair) :
    (m.rename r).action? (r s) p = (m.action? s p).map (Action.rename r) := by
  unfold action? row
  rw [h.transitions_rename hs]
  cases m.transitions[s]? with
  | none => simp
  | some row =>
    simp only [Option.map_some, Option.getD_some]
    exact Std.ExtTreeMap.getElem?_map

/-- A transition that the machine leaves out is left out by the renamed machine, and leads to the same sink. -/
theorem Renames.getD_rename (h : m.Renames r) (hs : s ∈ m.mentioned) (p : SymbolPair) :
    ((m.rename r).action? (r s) p).getD .invalid = ((m.action? s p).getD .invalid).rename r := by
  rw [h.action?_rename hs]
  cases m.action? s p with
  | none =>
    show Action.invalid = Action.invalid.rename r
    rw [Action.rename, Action.invalid, h.sink]
  | some a => rfl

/-- The renamed machine takes the renamed steps. -/
theorem Renames.step?_rename (h : m.Renames r) (hs : s ∈ m.mentioned) (p : SymbolPair) :
    (m.rename r).step? (r s) p = (m.step? s p).map (Action.rename r) := by
  unfold step?
  rw [h.stops_rename hs, h.getD_rename hs]
  split
  · rfl
  · rfl

end Machine

end DispatchTree
