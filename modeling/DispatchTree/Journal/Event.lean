import DispatchTree.Document.Basic
import DispatchTree.Journal.Span
import DispatchTree.Plan

/-!
# Events

What the program notes while it works. An event has a level, the part of the program it belongs to, a message and named values. It
happens within spans of work.
-/

namespace DispatchTree

/-- How important an event is, the most important first. -/
inductive Level where
  | error | warn | info | debug | trace
  deriving DecidableEq, Repr

/-- The rank of a level: the most important one has the least. -/
def Level.rank : Level → Nat
  | .error => 1
  | .warn => 2
  | .info => 3
  | .debug => 4
  | .trace => 5

/-- The name of a level. -/
def Level.name : Level → String
  | .error => "ERROR"
  | .warn => "WARN"
  | .info => "INFO"
  | .debug => "DEBUG"
  | .trace => "TRACE"

/-- Something worth noting. -/
inductive Event where
  | starting
  | noGlobalFile (path : String)
  | settingsLoaded (width : Nat) (root : String)
  | settingsFailed (message : String)
  | machineLoaded (initial : String) (rules halts : Nat)
  | bundledMachine
  | building (root : String)
  | transitionsIgnored (state : String)
  | initialTerminal
  | tableCompleted (rows terminals defaulted : Nat)
  | actionInterned (state : String) (pair : SymbolPair) (id : Nat)
  | actionsNumbered (count : Nat)
  | nodeBuilt (id : Nat) (state kind : String) (out : Nat)
  | graphBuilt (nodes edges rootEdges : Nat)
  | compiled (states actions : Nat)
  | nodeWritten (id : Nat) (kind : String)
  | edgePresent (link : String)
  | edgesLinked (directory : String) (edges duplicates : Nat)
  | treeWritten (nodes edges rootEdges : Nat) (fingerprint : String)
  | succeeded
  | failed (message : String)
  deriving DecidableEq, Repr

namespace Event

/-- The level of an event. -/
def level : Event → Level
  | .settingsFailed _ | .failed _ => .error
  | .transitionsIgnored _ | .initialTerminal => .warn
  | .starting | .bundledMachine | .building _ | .compiled _ _ | .treeWritten _ _ _ _ | .succeeded => .info
  | .actionInterned _ _ _ | .nodeBuilt _ _ _ _ | .nodeWritten _ _ => .trace
  | _ => .debug

/-- The part of the program an event belongs to. -/
def target : Event → String
  | .starting | .settingsFailed _ | .succeeded | .failed _ => "tapelink"
  | .noGlobalFile _ => "tapelink::config::sources::global_file"
  | .settingsLoaded _ _ => "tapelink::config"
  | .machineLoaded _ _ _ => "tapelink::machine"
  | .bundledMachine | .building _ => "tapelink::cli::route"
  | .transitionsIgnored _ | .initialTerminal | .tableCompleted _ _ _ => "tapelink::compile::complete"
  | .actionInterned _ _ _ | .actionsNumbered _ => "tapelink::compile::canon"
  | .nodeBuilt _ _ _ _ | .graphBuilt _ _ _ => "tapelink::compile::graph"
  | .compiled _ _ => "tapelink::compile"
  | .nodeWritten _ _ | .edgePresent _ | .edgesLinked _ _ _ | .treeWritten _ _ _ _ => "tapelink::compile::materialize"

/-- The message of an event. -/
def message : Event → String
  | .starting => "Tapelink CLI starting"
  | .noGlobalFile _ => "No global configuration file"
  | .settingsLoaded _ _ => "Loaded configuration"
  | .settingsFailed m => "Error loading configuration: " ++ m
  | .machineLoaded _ _ _ => "Loaded machine description"
  | .bundledMachine => "No machine given, using the bundled primality tester"
  | .building _ => "Building artifact tree"
  | .transitionsIgnored _ => "Terminal state has transitions; they are ignored"
  | .initialTerminal => "Initial state is terminal; the machine halts on its first read"
  | .tableCompleted _ _ _ => "Completed transition table"
  | .actionInterned _ _ _ => "Interned action"
  | .actionsNumbered _ => "Canonicalized actions"
  | .nodeBuilt _ _ _ _ => "Built node"
  | .graphBuilt _ _ _ => "Built artifact graph"
  | .compiled _ _ => "Compiled machine"
  | .nodeWritten _ _ => "Wrote node"
  | .edgePresent _ => "Edge already present"
  | .edgesLinked _ _ _ => "Linked edges"
  | .treeWritten _ _ _ _ => "Artifact tree written"
  | .succeeded => "Command completed successfully"
  | .failed m => "Command failed: " ++ m

/-- The named values of an event. -/
def values : Event → List (String × Document)
  | .noGlobalFile path => [("config_path", .string path)]
  | .settingsLoaded width root => [("width", .integer width), ("root", .string root)]
  | .machineLoaded initial rules halts =>
    [("initial", .string initial), ("rules", .integer rules), ("halts", .integer halts)]
  | .building root => [("root", .string root)]
  | .transitionsIgnored state => [("state", .string state)]
  | .tableCompleted rows terminals defaulted =>
    [("rows", .integer rows), ("terminals", .integer terminals), ("defaulted", .integer defaulted)]
  | .actionInterned state pair id => [("state", .string state), ("pair", .string pair.text), ("id", .string (tag id))]
  | .actionsNumbered count => [("mono_states", .integer count)]
  | .nodeBuilt id state kind out =>
    [("id", .string (tag id)), ("state", .string state), ("kind", .string kind), ("out", .integer out)]
  | .graphBuilt nodes edges rootEdges =>
    [("nodes", .integer nodes), ("edges", .integer edges), ("root_edges", .integer rootEdges)]
  | .compiled states actions => [("states", .integer states), ("mono_states", .integer actions)]
  | .nodeWritten id kind => [("id", .string (tag id)), ("kind", .string kind)]
  | .edgePresent link => [("link", .string link)]
  | .edgesLinked directory edges duplicates =>
    [("dir", .string directory), ("edges", .integer edges), ("duplicates", .integer duplicates)]
  | .treeWritten nodes edges rootEdges fingerprint =>
    [("nodes", .integer nodes), ("edges", .integer edges), ("root_edges", .integer rootEdges),
      ("fingerprint", .string fingerprint)]
  | _ => []

/-- The names of an event's message and values. The time that a tree took has a name, but no value that is noted. -/
def valueNames (e : Event) : List String :=
  "message" :: e.values.map (·.1) ++
    match e with
    | .treeWritten _ _ _ _ => ["duration_ms"]
    | _ => []

end Event

/-- An event with the spans of work in which it happened, the innermost last. -/
structure Occurrence where
  event : Event
  spans : List Span
  deriving DecidableEq, Repr

/-- An event that happens within no span. -/
def Event.alone (e : Event) : Occurrence := ⟨e, []⟩

/-- What happens within a span. -/
def Span.around (s : Span) (os : List Occurrence) : List Occurrence := os.map fun o => { o with spans := s :: o.spans }

/-- Events that happen within a span and no other. -/
def Span.events (s : Span) (es : List Event) : List Occurrence := s.around (es.map Event.alone)

/-- The events of the completion of a machine. -/
def Machine.completionEvents (m : Machine) : List Event :=
  let t := m.complete
  ((m.mentioned.toList.filter fun s => t.isTerminal s && m.transitions.contains s).map Event.transitionsIgnored) ++
    (if t.isTerminal m.initial then [.initialTerminal] else []) ++
    [.tableCompleted t.rows.size t.halts.size m.defaulted]

/-- The events of the numbering of a table's actions. -/
def Catalog.numberingEvents (c : Catalog) (t : Table) : List Event :=
  (t.entries.filterMap fun (state, pair, a) => (c.get? a).map fun id => .actionInterned state pair id) ++
    [.actionsNumbered c.size]

/-- The events of the construction of a graph. -/
def Graph.constructionEvents (g : Graph) : List Event :=
  g.nodes.map (fun n => .nodeBuilt n.id n.state n.program.kind n.edges.size) ++
    [.graphBuilt g.nodes.length g.edgeCount g.rootEdges.size]

/-- What happens in the compilation of a machine. -/
def Plan.occurrences (p : Plan) (m : Machine) : List Occurrence :=
  (Span.planning m.initial).around
    ((Span.completion m.initial).events m.completionEvents ++
      Span.numbering.events (p.catalog.numberingEvents p.table) ++
      (Span.construction m.initial).events p.graph.constructionEvents ++
      [Event.alone (.compiled p.table.states.size p.catalog.size)])

end DispatchTree
