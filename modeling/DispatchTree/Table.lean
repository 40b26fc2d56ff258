import DispatchTree.Machine
import Std.Data.ExtTreeSet

/-!
# Completed tables

The completed table of a machine answers every pair in every state that is not terminal. Its states are all that the machine
mentions, together with the sink; a transition that the machine leaves out leads to the sink. Rules of terminal states are not
in it.
-/

namespace DispatchTree

/-- A table that is defined on every state that is not terminal and on all nine pairs. -/
structure Table where
  initial : String
  prompt : String
  /-- The terminal states and their messages. -/
  halts : Std.ExtTreeMap String String
  /-- The rows of the other states. -/
  rows : Std.ExtTreeMap String Row

namespace Machine

/-- The terminal states of the completed table: those of the machine, and the sink. -/
def terminals (m : Machine) : Std.ExtTreeMap String String := m.halts.insertIfNew sinkState sinkMessage

/-- Every state the machine mentions, and the sink. -/
def mentioned (m : Machine) : Std.ExtTreeSet String :=
  .ofList (m.initial :: sinkState :: m.halts.keys ++
    m.transitions.toList.flatMap fun e => e.1 :: e.2.toList.map fun r => r.2.next)

/-- The row of a state with the sink filled in. -/
def fullRow (m : Machine) (state : String) : Row :=
  .ofList (SymbolPair.all.map fun p => (p, (m.action? state p).getD .invalid))

/-- The states that get a row. -/
def rowStates (m : Machine) : List String := m.mentioned.toList.filter fun s => !m.terminals.contains s

/-- The completed table of a machine. -/
def complete (m : Machine) : Table where
  initial := m.initial
  prompt := m.prompt
  halts := m.terminals
  rows := .ofList (m.rowStates.map fun s => (s, m.fullRow s))

/-- How many transitions of the completed table the machine left out. -/
def defaulted (m : Machine) : Nat :=
  (m.rowStates.flatMap fun s => SymbolPair.all.filter fun p => (m.action? s p).isNone).length

end Machine

namespace Table

/-- Whether the machine halts in a state. -/
def isTerminal (t : Table) (state : String) : Bool := t.halts.contains state

/-- The action of a state on a pair. -/
def lookup (t : Table) (state : String) (read : SymbolPair) : Option Action :=
  t.rows[state]?.bind fun row => row[read]?

/-- Every state, terminal or not. -/
def states (t : Table) : Std.ExtTreeSet String := .ofList (t.rows.keys ++ t.halts.keys)

/-- The transitions in the order of states and pairs. -/
def entries (t : Table) : List (String × SymbolPair × Action) :=
  t.rows.toList.flatMap fun (state, row) => row.toList.map fun (p, a) => (state, p, a)

end Table

end DispatchTree
