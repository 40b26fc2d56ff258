import DispatchTree.Graph.Edges
import DispatchTree.Screen.Display

/-!
# Dispatch graphs

The compiled form of a machine. Each action of a catalog is a node: it has the number of the action, the program that is run when
the node is entered and the edges of the state that the action enters. The edges of the initial state belong to no node; they are
the root's.
-/

namespace DispatchTree

/-- What a node shows when it is entered. -/
inductive Program where
  /-- The node enters a terminal state. -/
  | halt (message : String)
  /-- Both tracks are written and moved, and the next pair is asked for. -/
  | step (first second : TrackOp)
  deriving DecidableEq, Repr

/-- One action of the compiled machine. -/
structure Node where
  /-- The number of the action, a word of 32 bits: more actions than there are words share numbers. -/
  id : Nat
  /-- The state the machine is in once the node has been entered. -/
  state : String
  program : Program
  edges : Edges
  deriving DecidableEq

/-- A compiled machine. -/
structure Graph where
  prompt : String
  initial : String
  nodes : List Node
  rootEdges : Edges
  deriving DecidableEq

/-- Why a table and a catalog do not give a graph. -/
inductive GraphFault where
  /-- The action of a transition has no number. -/
  | missingId (state : String) (pair : SymbolPair)
  | conflict (c : EdgeConflict)
  deriving DecidableEq, Repr

/-- How a fault is reported. -/
def GraphFault.message : GraphFault → String
  | .missingId state pair => "No canonical id for the action of state " ++ state ++ " reading " ++ pair.text
  | .conflict c => c.message

namespace Program

/-- The screen program of a node. -/
def commands (d : Display) : Program → Except Underflow (List Control)
  | .halt message => .ok (Display.haltProgram message)
  | .step first second => d.stepProgram first second

/-- The characters of a node's screen program. -/
def render (d : Display) (p : Program) : Except Underflow String := (p.commands d).map encodeAll

/-- The name of the kind of program. -/
def kind : Program → String
  | .halt _ => "halt"
  | .step _ _ => "step"

end Program

namespace Graph

/-- Inserts an edge for each of the keys. -/
def insertKeys (source : EdgeSource) (target : Nat) : List String → Edges → Except GraphFault Edges
  | [], es => .ok es
  | key :: keys, es => do
    let (_, es) ← (es.insertEdge key target source).mapError .conflict
    insertKeys source target keys es

/-- Inserts the edges of transitions from a state: both keys of each pair lead to the node of its action. -/
def insertRow (c : Catalog) (state : String) : List (SymbolPair × Action) → Edges → Except GraphFault Edges
  | [], es => .ok es
  | (pair, a) :: rest, es =>
    match c.get? a with
    | none => .error (.missingId state pair)
    | some target => do
      let es ← insertKeys ⟨state, pair⟩ target pair.dispatchKeys es
      insertRow c state rest es

/-- The edges of a state; a state without row has none. -/
def stateEdges (t : Table) (c : Catalog) (state : String) : Except GraphFault Edges :=
  match t.rows[state]? with
  | some row => insertRow c state row.toList ∅
  | none => .ok ∅

/-- The program of an action. -/
def programOf (t : Table) (a : Action) : Program :=
  match t.halts[a.next]? with
  | some message => .halt message
  | none => .step a.first a.second

/-- The node of an action with its number. -/
def nodeOf (t : Table) (c : Catalog) (id : Nat) (a : Action) : Except GraphFault Node :=
  (stateEdges t c a.next).map fun edges => ⟨id, a.next, programOf t a, edges⟩

/-- The nodes of actions, the first of which has the given place. -/
def nodesOf (t : Table) (c : Catalog) : Nat → List Action → Except GraphFault (List Node)
  | _, [] => .ok []
  | place, a :: as => do
    let node ← nodeOf t c (Catalog.number place) a
    let nodes ← nodesOf t c (place + 1) as
    return node :: nodes

/-- The graph of a table whose actions have the numbers of a catalog. -/
def build (t : Table) (c : Catalog) : Except GraphFault Graph := do
  let nodes ← nodesOf t c 0 c.toList
  let rootEdges ← stateEdges t c t.initial
  return ⟨t.prompt, t.initial, nodes, rootEdges⟩

/-- The node of a number. -/
def node? (g : Graph) (id : Nat) : Option Node := g.nodes[id]?

/-- The edges of a position: of the root, or of a node. -/
def edgesAt (g : Graph) : Option Nat → Option Edges
  | none => some g.rootEdges
  | some id => (g.node? id).map Node.edges

/-- Where a dispatch key leads from a position; the root is `none`. -/
def follow (g : Graph) (position : Option Nat) (key : String) : Option Nat :=
  (g.edgesAt position).bind fun es => es[key]?

/-- The number of edges, those of the root not counted. -/
def edgeCount (g : Graph) : Nat := (g.nodes.flatMap fun n => n.edges.toList).length

end Graph

end DispatchTree
