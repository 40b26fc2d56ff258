import DispatchTree.Tape.Action
import Std.Data.ExtTreeMap

/-!
# Machines

A machine is a possibly partial description of a deterministic machine with two tracks: an initial state, a prompt, the terminal
states with their messages, and for each state a row of actions. Two machines with the same answers are equal: maps are
extensional and have no order of insertion.
-/

namespace DispatchTree

/-- The actions of one state, by the pair that is read. -/
abbrev Row := Std.ExtTreeMap SymbolPair Action

/-- A possibly partial machine. -/
structure Machine where
  initial : String
  prompt : String
  /-- The terminal states and the message shown in each. -/
  halts : Std.ExtTreeMap String String
  transitions : Std.ExtTreeMap String Row
  deriving DecidableEq

namespace Machine

/-- A machine that has nothing but an initial state. -/
def new (initial : String) : Machine := ⟨initial, "", ∅, ∅⟩

/-- The machine with another prompt. -/
def withPrompt (m : Machine) (prompt : String) : Machine := { m with prompt }

/-- The machine with a terminal state; its message replaces an earlier one. -/
def halt (m : Machine) (state message : String) : Machine := { m with halts := m.halts.insert state message }

/-- The row of a state; a state without rules has an empty one. -/
def row (m : Machine) (state : String) : Row := (m.transitions[state]?).getD ∅

/-- The action of a state on a pair, if the machine specifies one. -/
def action? (m : Machine) (state : String) (read : SymbolPair) : Option Action := (m.row state)[read]?

/-- The machine with a rule; its action replaces an earlier one for the same state and pair. -/
def rule (m : Machine) (state : String) (read : SymbolPair) (a : Action) : Machine :=
  { m with transitions := m.transitions.insert state ((m.row state).insert read a) }

/-- Adds a rule, and gives the action it replaced. -/
def insertRule (m : Machine) (state : String) (read : SymbolPair) (a : Action) : Option Action × Machine :=
  (m.action? state read, m.rule state read a)

/-- The number of rules. -/
def ruleCount (m : Machine) : Nat := (m.transitions.toList.flatMap fun e => e.2.toList).length

end Machine

end DispatchTree
