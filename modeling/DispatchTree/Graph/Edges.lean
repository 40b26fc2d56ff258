import DispatchTree.Catalog
import DispatchTree.Screen.Reply
import DispatchTree.Text.Quoted

/-!
# Dispatch edges

The edges of a node lead from a dispatch key to the number of another node, as the catalog gives it out. A key never changes its
target: giving it the same target again is allowed and changes nothing, giving it another one is a conflict.
-/

namespace DispatchTree

/-- From dispatch keys to the numbers of nodes, which are words of 32 bits. -/
abbrev Edges := Std.ExtTreeMap String Nat

/-- The transition that an edge stands for. -/
structure EdgeSource where
  state : String
  pair : SymbolPair
  deriving DecidableEq, Repr

/-- A key that should get a second target. Key and targets are given as they are shown. -/
structure EdgeConflict where
  source : EdgeSource
  key : String
  existing : String
  target : String
  deriving DecidableEq, Repr

/-- How a conflict is reported. -/
def EdgeConflict.message (c : EdgeConflict) : String :=
  "Conflicting edge from state " ++ c.source.state ++ " reading " ++ c.source.pair.text ++ ": key " ++ c.key ++
    " already points at " ++ c.existing ++ ", refusing to redirect it to " ++ c.target

/-- What the insertion of an edge did. -/
inductive EdgeInsert where
  | added
  /-- The edge was there with the same target. -/
  | duplicate
  deriving DecidableEq, Repr

/-- Inserts an edge, unless its key leads elsewhere. -/
def Edges.insertEdge (es : Edges) (key : String) (target : Nat) (source : EdgeSource) :
    Except EdgeConflict (EdgeInsert × Edges) :=
  match es[key]? with
  | none => .ok (.added, es.insert key target)
  | some existing =>
    if existing = target then .ok (.duplicate, es)
    else .error ⟨source, Text.escaped key, tag existing, tag target⟩

end DispatchTree
