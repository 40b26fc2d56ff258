import DispatchTree.Machine.Primality
import DispatchTree.Proofs.Rules
import DispatchTree.Proofs.Tape.Strip

/-!
# The rules of the primality tester

The tester takes the action of each of its rules (`step?_of_mem`), so that a step on strips is justified by a rule of its list
(`reaches_rule`). Binary digits are written on the tracks as symbols.
-/

namespace DispatchTree

namespace Primality

/-- The symbol of a binary digit. -/
def digit : Bool → Symbol
  | false => .zero
  | true => .one

/-- The symbols of binary digits. -/
def digits (ds : List Bool) : List Symbol := ds.map digit

/-- The machine is its frame with the rules. -/
theorem machine_eq : machine = frame.addRules rules := rfl

theorem machine_initial : machine.initial = "clr0" := by
  rw [machine_eq, Machine.initial_addRules]
  rfl

/-- No two rules are for the same state and the same pair. -/
theorem nodup_rules : (rules.map fun r => (r.1, r.2.1)).Nodup := by decide +kernel

/-- The tester stops in no state that has a rule. -/
theorem stops_of_mem {r : String × SymbolPair × Action} (h : r ∈ rules) : machine.stops r.1 = false := by
  have hother : ∀ r ∈ rules, r.1 ≠ "notprime" ∧ r.1 ≠ "prime" ∧ r.1 ≠ sinkState := by decide
  obtain ⟨h1, h2, h3⟩ := hother r h
  unfold Machine.stops
  rw [machine_eq, Machine.halts_addRules]
  simp [frame, Machine.new, Machine.withPrompt, Machine.halt, h1.symm, h2.symm, h3]

/-- The tester takes the action of each of its rules. -/
theorem step?_of_mem {state : String} {p : SymbolPair} {a : Action} (h : (state, p, a) ∈ rules) :
    machine.step? state p = some a := by
  rw [Machine.step?, stops_of_mem h, machine_eq, Machine.action?_addRules rules frame nodup_rules h]
  rfl

/-- A rule of the tester as one step on strips. -/
theorem reaches_rule {state : String} {l1 r1 l2 r2 : List Symbol} {x y : Symbol} {a : Action} {one two : Strip}
    (h : (state, ⟨x, y⟩, a) ∈ rules) (h1 : Strip.act a.first ⟨l1, x :: r1⟩ = some one)
    (h2 : Strip.act a.second ⟨l2, y :: r2⟩ = some two) :
    Strips.Reaches machine ⟨state, ⟨l1, x :: r1⟩, ⟨l2, y :: r2⟩⟩ ⟨a.next, one, two⟩ :=
  Strips.reaches_of_step (step?_of_mem h) h1 h2

end Primality

end DispatchTree
