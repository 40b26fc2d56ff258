import DispatchTree.Proofs.Completion

/-!
# Machines given by lists of rules

What adding rules one after the other makes of a machine: the initial state and the messages stay, and where no two rules are for
the same state and pair, every rule is in force (`action?_addRules`). No other actions come in (`mem_of_action?_addRules`).
-/

namespace DispatchTree

namespace Machine

/-- A rule is in force for its own state and pair, and leaves the actions for all others. -/
theorem action?_rule (m : Machine) (state : String) (read : SymbolPair) (a : Action) (s : String) (p : SymbolPair) :
    (m.rule state read a).action? s p = if s = state ∧ p = read then some a else m.action? s p := by
  unfold action? row rule
  simp only [Std.ExtTreeMap.getElem?_insert, Std.LawfulEqOrd.compare_eq_iff_eq]
  by_cases hs : state = s
  · subst hs
    rw [if_pos rfl, Option.getD_some, Std.ExtTreeMap.getElem?_insert]
    by_cases hp : read = p
    · simp [hp]
    · simp [hp, Ne.symm hp, row]
  · rw [if_neg hs, if_neg fun h => hs h.1.symm]

/-- The machine with rules added one after the other. -/
def addRules (m : Machine) (rules : List (String × SymbolPair × Action)) : Machine :=
  rules.foldl (fun m r => m.rule r.1 r.2.1 r.2.2) m

/-- Rules do not change the initial state. -/
theorem initial_addRules (rules : List (String × SymbolPair × Action)) : ∀ m : Machine, (m.addRules rules).initial = m.initial := by
  induction rules with
  | nil => intro m; rfl
  | cons r rules ih => intro m; exact ih _

/-- Rules do not change the prompt. -/
theorem prompt_addRules (rules : List (String × SymbolPair × Action)) : ∀ m : Machine, (m.addRules rules).prompt = m.prompt := by
  induction rules with
  | nil => intro m; rfl
  | cons r rules ih => intro m; exact ih _

/-- Rules do not change the messages. -/
theorem halts_addRules (rules : List (String × SymbolPair × Action)) : ∀ m : Machine, (m.addRules rules).halts = m.halts := by
  induction rules with
  | nil => intro m; rfl
  | cons r rules ih => intro m; exact ih _

/-- Rules for other states or pairs leave an action. -/
theorem action?_addRules_of_notMem (rules : List (String × SymbolPair × Action)) {s : String} {p : SymbolPair} :
    ∀ m : Machine, (s, p) ∉ rules.map (fun r => (r.1, r.2.1)) → (m.addRules rules).action? s p = m.action? s p := by
  induction rules with
  | nil => intro m _; rfl
  | cons r rules ih =>
    intro m h
    simp only [List.map_cons, List.mem_cons, Prod.mk.injEq, not_or] at h
    exact (ih _ h.2).trans (by rw [action?_rule, if_neg h.1])

/-- If no two rules are for the same state and pair, every rule is in force. -/
theorem action?_addRules (rules : List (String × SymbolPair × Action)) {s : String} {p : SymbolPair} {a : Action} :
    ∀ m : Machine, (rules.map fun r => (r.1, r.2.1)).Nodup → (s, p, a) ∈ rules → (m.addRules rules).action? s p = some a := by
  induction rules with
  | nil => intro m _ h; cases h
  | cons r rules ih =>
    intro m hd h
    rw [List.map_cons, List.nodup_cons] at hd
    rcases List.mem_cons.1 h with rfl | h
    · exact (action?_addRules_of_notMem rules _ hd.1).trans (by rw [action?_rule, if_pos ⟨rfl, rfl⟩])
    · exact ih _ hd.2 h

/-- Every action of a machine with added rules is one it had before, or that of an added rule. -/
theorem mem_of_action?_addRules (rules : List (String × SymbolPair × Action)) {s : String} {p : SymbolPair} {a : Action} :
    ∀ m : Machine, (m.addRules rules).action? s p = some a → m.action? s p = some a ∨ (s, p, a) ∈ rules := by
  induction rules with
  | nil => exact fun m h => .inl h
  | cons r rules ih =>
    intro m h
    rcases ih _ h with hadded | hmem
    · rw [action?_rule] at hadded
      split at hadded
      · rename_i hrule
        obtain ⟨rfl, rfl⟩ := hrule
        cases hadded
        exact .inr List.mem_cons_self
      · exact .inl hadded
    · exact .inr (List.mem_cons_of_mem r hmem)

end Machine

end DispatchTree
