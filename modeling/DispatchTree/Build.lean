import DispatchTree.Files.Disk
import DispatchTree.Journal.Event
import DispatchTree.Report

/-!
# Building a tree

A graph is written as a directory tree: the two programs of the display at the root, a directory for each node with its program,
and a symbolic link for each edge, named by its dispatch key and leading to the directory of its target. The root must not be
there before. A build is a list of operations that are carried out one after the other; the first one that fails ends it, and
what was written by then stays, also a part of a file that could not be written to its end.
-/

namespace DispatchTree

/-- Why a build failed. -/
inductive BuildFault where
  | outputRootExists (path : String)
  | graph (fault : GraphFault)
  | conflict (c : EdgeConflict)
  | disk (path : String) (fault : DiskFault)
  /-- A program could not be rendered. -/
  | underflow (u : Underflow)
  deriving DecidableEq, Repr

/-- How a fault is reported. -/
def BuildFault.message : BuildFault → String
  | .outputRootExists path => "Output root already exists: " ++ Text.quote path
  | .graph f => f.message
  | .conflict c => c.message
  | .disk path f => "I/O error at " ++ Text.quote path ++ ": " ++ f.message
  | .underflow u => u.message

/-- What the creation of a link did. -/
inductive LinkOutcome where
  | created
  /-- The link was there with the same target. -/
  | alreadySatisfied
  deriving DecidableEq, Repr

/-- The target of a link to a node, from the root or from the directory of another node. -/
def linkTarget (id : Nat) (nested : Bool) : String := if nested then Path.join ".." (tag id) else tag id

/-- Creates the link of an edge, unless its name is taken. A link with the same target is as good. -/
def Disk.linkEdge (d : Disk) (target link : String) (source : EdgeSource) : Except BuildFault (LinkOutcome × Disk) :=
  match d.makeLink target link with
  | .ok d => .ok (.created, d)
  | .error .alreadyExists =>
    match d.readLink link with
    | .error f => .error (.disk link f)
    | .ok existing =>
      if Path.same existing target then .ok (.alreadySatisfied, d)
      else .error (.conflict ⟨source, Text.escaped ((Path.fileName? link).getD ""), existing, target⟩)
  | .error f => .error (.disk link f)

/-- One step of a build. -/
inductive Operation where
  | directory (path : String)
  | file (path : String) (content : Except Underflow String)
  | link (target path : String) (source : EdgeSource)
  /-- A node's directory and program are there. -/
  | nodeDone (id : Nat) (kind : String)
  /-- All links of a directory are there. -/
  | linksDone (directory : String) (edges : Nat)

/-- How far a build has come. -/
structure Progress where
  disk : Disk
  /-- The events noted so far. -/
  events : List Event
  /-- The links of the directory at hand that were there already. -/
  present : Nat
  /-- The links of earlier directories that were there already. -/
  duplicates : Nat

namespace Operation

/-- Carries out one step. -/
def run (p : Progress) : Operation → Except BuildFault Progress
  | .directory path => do
    let disk ← (p.disk.makeDirectory path).mapError (.disk path ·)
    return { p with disk }
  | .file path content => do
    let text ← content.mapError .underflow
    let disk ← (p.disk.writeText path text).mapError (.disk path ·)
    return { p with disk }
  | .link target path source => do
    let (outcome, disk) ← p.disk.linkEdge target path source
    match outcome with
    | .created => return { p with disk }
    | .alreadySatisfied => return { p with disk, events := p.events ++ [.edgePresent path], present := p.present + 1 }
  | .nodeDone id kind => .ok { p with events := p.events ++ [.nodeWritten id kind] }
  | .linksDone path edges =>
    .ok { p with
      events := p.events ++ [.edgesLinked path edges p.present]
      present := 0
      duplicates := p.duplicates + p.present }

/-- What is there once a step has failed. -/
def afterFailure (p : Progress) : Operation → Progress
  | .file path (.ok text) => { p with disk := p.disk.afterFailedWrite path text.toUTF8 }
  | _ => p

/-- Carries out steps until one fails; how far they came in either case. -/
def runAll : List Operation → Progress → Except BuildFault Unit × Progress
  | [], p => (.ok (), p)
  | op :: ops, p =>
    match op.run p with
    | .ok p => runAll ops p
    | .error f => (.error f, op.afterFailure p)

end Operation

namespace Graph

/-- The name of the program that sets up the display. -/
def initFile : String := "init"

/-- The name of the program that is shown after the input. -/
def postInitFile : String := "postinit"

/-- The name of a node's program. -/
def executeFile : String := "w"

/-- The steps that write a node without its links. -/
def nodeOperations (d : Display) (root : String) (n : Node) : List Operation :=
  let directory := Path.join root (tag n.id)
  [.directory directory, .file (Path.join directory executeFile) (n.program.render d), .nodeDone n.id n.program.kind]

/-- The steps that write the links of a directory: for each pair the keys that have an edge. -/
def linkOperations (directory state : String) (edges : Edges) (nested : Bool) : List Operation :=
  (SymbolPair.all.flatMap fun pair => pair.dispatchKeys.filterMap fun key =>
    edges[key]?.map fun target => .link (linkTarget target nested) (Path.join directory key) ⟨state, pair⟩) ++
    [.linksDone directory edges.size]

/-- The steps of a build below its root directory. -/
def operations (g : Graph) (d : Display) (root : String) : List Operation :=
  [.file (Path.join root initFile) (.ok (encodeAll (d.initProgram g.prompt))),
    .file (Path.join root postInitFile) (.ok (encodeAll d.postInitProgram))] ++
    g.nodes.flatMap (nodeOperations d root) ++
    g.nodes.flatMap (fun n => linkOperations (Path.join root (tag n.id)) n.state n.edges true) ++
    linkOperations root g.initial g.rootEdges false

/-- Creates the directories above a root. -/
def makeParents (disk : Disk) (root : String) : Except BuildFault Unit × Disk :=
  match Path.parent? root with
  | none => (.ok (), disk)
  | some parent =>
    if parent.isEmpty then (.ok (), disk)
    else
      let (result, disk) := disk.makeDirectories parent
      (result.mapError (.disk parent ·), disk)

/-- Creates the root directory and the directories above it. -/
def makeRoot (disk : Disk) (root : String) : Except BuildFault Unit × Disk :=
  match makeParents disk root with
  | (.error f, disk) => (.error f, disk)
  | (.ok (), disk) =>
    match disk.makeDirectory root with
    | .ok disk => (.ok (), disk)
    | .error .alreadyExists => (.error (.outputRootExists root), disk)
    | .error f => (.error (.disk root f), disk)

/-- Writes a graph as a tree at a root that is not there yet. -/
def materialize (g : Graph) (d : Display) (root : String) (disk : Disk) : Except BuildFault BuildSummary × Disk × List Event :=
  if disk.hasEntry root then (.error (.outputRootExists root), disk, [])
  else
    match makeRoot disk root with
    | (.error f, disk) => (.error f, disk, [])
    | (.ok (), disk) =>
      match Operation.runAll (g.operations d root) ⟨disk, [], 0, 0⟩ with
      | (.error f, p) => (.error f, p.disk, p.events)
      | (.ok (), p) =>
        match g.fingerprint d with
        | .error u => (.error (.underflow u), p.disk, p.events)
        | .ok fingerprint =>
          let s : BuildSummary := ⟨root, g.nodes.length, g.edgeCount, g.rootEdges.size, p.duplicates, fingerprint⟩
          (.ok s, p.disk, p.events ++ [.treeWritten s.nodes s.edges s.rootEdges s.fingerprint])

end Graph

/-- Compiles a machine and writes its tree. -/
def Machine.build (m : Machine) (d : Display) (root : String) (disk : Disk) :
    Except BuildFault BuildSummary × Disk × List Occurrence :=
  if disk.hasEntry root then (.error (.outputRootExists root), disk, [])
  else
    match m.plan with
    | .error f => (.error (.graph f), disk, [])
    | .ok plan =>
      let (result, disk, events) := plan.graph.materialize d root disk
      (result, disk, plan.occurrences m ++ (Span.writing root).events events)

end DispatchTree
