import DispatchTree.Document.Json.Writer
import DispatchTree.Plan

/-!
# Reports

What is printed for a plan, as an aligned table or as JSON, and for a finished build. The width of a column is a sixteen-bit word: a
plan with a state whose name is too long for it cannot be printed as a table.
-/

namespace DispatchTree

/-- What a build wrote. -/
structure BuildSummary where
  root : String
  nodes : Nat
  edges : Nat
  rootEdges : Nat
  duplicateEdges : Nat
  fingerprint : String
  deriving DecidableEq, Repr

/-- Why a plan cannot be printed. -/
inductive ReportFault where
  /-- A column is wider than the widest one. -/
  | columnTooWide
  deriving DecidableEq, Repr

/-- How a fault of a report is reported. -/
def ReportFault.message : ReportFault → String
  | .columnTooWide => "Formatting argument out of range"

namespace Report

/-- The width of the widest column. -/
def maxWidth : Nat := 65535

/-- A text preceded by as many spaces as bring it to `width` characters. -/
def padLeft (s : String) (width : Nat) : String := "".pushn ' ' (width - s.length) ++ s

/-- The width of the column of states: the length in bytes of the longest one, and room for the heading. -/
def stateWidth (g : Graph) : Nat := (g.nodes.map fun n => n.state.utf8ByteSize).foldl max 4

/-- One line of the table. -/
def tableLine (width : Nat) (tag next kind out : String) : String :=
  padRight tag 4 ++ "  " ++ padRight next width ++ "  " ++ padRight kind 4 ++ "  " ++ padLeft out 3

/-- The line of a node. -/
def nodeLine (width : Nat) (n : Node) : String :=
  tableLine width (tag n.id) n.state n.program.kind (Nat.repr n.edges.size)

/-- The lines of a plan. -/
def planLines (p : Plan) (fingerprint : String) : List String :=
  let width := stateWidth p.graph
  ["Initial state: " ++ p.graph.initial ++ " (" ++ Nat.repr p.table.states.size ++ " states, " ++
      Nat.repr p.graph.nodes.length ++ " mono-states)",
    "Fingerprint: " ++ fingerprint, "", tableLine width "TAG" "NEXT" "KIND" "OUT"] ++
    p.graph.nodes.map (nodeLine width) ++
    ["", "Root edges: " ++ Nat.repr p.graph.rootEdges.size]

/-- A plan as a table. -/
def planText (p : Plan) (fingerprint : String) : Except ReportFault String :=
  if maxWidth < stateWidth p.graph then .error .columnTooWide else .ok ("\n".intercalate (planLines p fingerprint))

/-- A node as a document, its keys in alphabetical order. -/
def nodeDocument (p : Plan) (n : Node) : Document :=
  .table [
    ("action", match p.catalog.action? n.id with
      | some a => .string a.text
      | none => .null),
    ("kind", .string n.program.kind),
    ("next", .string n.state),
    ("out_degree", .integer n.edges.size),
    ("tag", .string (tag n.id))]

/-- A plan as a document, its keys in alphabetical order. -/
def planDocument (p : Plan) (fingerprint : String) : Document :=
  .table [
    ("fingerprint", .string fingerprint),
    ("initial", .string p.graph.initial),
    ("mono_states", .integer p.graph.nodes.length),
    ("nodes", .list (p.graph.nodes.map (nodeDocument p))),
    ("root_edges", .integer p.graph.rootEdges.size),
    ("states", .integer p.table.states.size)]

/-- A plan as JSON. -/
def planJson (p : Plan) (fingerprint : String) : String := Json.pretty (planDocument p fingerprint)

/-- What is printed after a build. -/
def buildText (s : BuildSummary) : String :=
  "Wrote " ++ Nat.repr s.nodes ++ " mono-states, " ++ Nat.repr s.edges ++ " edges and " ++ Nat.repr s.rootEdges ++
    " root edges to " ++ s.root ++ "\nFingerprint: " ++ s.fingerprint ++
    (if s.duplicateEdges > 0 then "\n" ++ Nat.repr s.duplicateEdges ++ " duplicate edges were already satisfied" else "")

end Report

end DispatchTree
