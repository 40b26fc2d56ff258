import DispatchTree.Command.Arguments
import DispatchTree.Command.Fault
import DispatchTree.Machine.Primality

/-!
# Carrying out a command

A command takes its machine from a file of the workspace, or the bundled one. It either writes a tree or prints a plan. What it
prints, what it changed on the disk and what it noted are returned together, also when it fails.
-/

namespace DispatchTree

/-- What came of a command. -/
structure Execution where
  result : Except CommandFault String
  disk : Disk
  occurrences : List Occurrence

namespace Command

/-- The name of a command. -/
def name : Command → String
  | .build _ _ => "build"
  | .plan _ _ => "plan"

/-- The machine of a command, and what is noted of it. -/
def chooseMachine (disk : Disk) (workspace : String) : Option String → Except CommandFault Machine × List Occurrence
  | none => (.ok Primality.machine, [Event.bundledMachine.alone])
  | some path =>
    let path := Path.join workspace path
    match Machine.load disk path with
    | .ok m => (.ok m, (Span.loading path).events [.machineLoaded m.initial m.ruleCount m.halts.size])
    | .error f => (.error (.machine f), [])

/-- Builds the tree of a machine. -/
def executeBuild (s : Settings) (workspace : String) (output : Option String) (disk : Disk) (m : Machine) : Execution :=
  let root := match output with
    | some path => Path.join workspace path
    | none => s.resolveRoot workspace
  let (result, disk, occurrences) := m.build s.display root disk
  ⟨(result.mapError .build).map Report.buildText, disk, (Event.building root).alone :: occurrences⟩

/-- The text of a plan. -/
def planReport (format : PlanFormat) (p : Plan) (fingerprint : String) : Except ReportFault String :=
  match format with
  | .text => Report.planText p fingerprint
  | .json => .ok (Report.planJson p fingerprint)

/-- Plans a machine. -/
def executePlan (s : Settings) (format : PlanFormat) (disk : Disk) (m : Machine) : Execution :=
  match m.plan with
  | .error f => ⟨.error (.build (.graph f)), disk, []⟩
  | .ok p =>
    match p.graph.fingerprint s.display with
    | .error u => ⟨.error (.build (.underflow u)), disk, p.occurrences m⟩
    | .ok fingerprint => ⟨(planReport format p fingerprint).mapError .report, disk, p.occurrences m⟩

/-- The file of a command's machine. -/
def machinePath? : Command → Option String
  | .build machine _ | .plan machine _ => machine

/-- Carries out a command with its machine. -/
def executeWith (c : Command) (s : Settings) (workspace : String) (disk : Disk) (m : Machine) : Execution :=
  match c with
  | .build _ output => executeBuild s workspace output disk m
  | .plan _ format => executePlan s format disk m

/-- Carries out a command in a workspace. -/
def execute (c : Command) (s : Settings) (workspace : String) (disk : Disk) : Execution :=
  let span := Span.command c.name
  match chooseMachine disk workspace c.machinePath? with
  | (.error f, occurrences) => ⟨.error f, disk, span.around occurrences⟩
  | (.ok m, occurrences) =>
    let e := c.executeWith s workspace disk m
    { e with occurrences := span.around (occurrences ++ e.occurrences) }

end Command

/-- Loads the settings of a command line and carries out its command. -/
def Arguments.execute (a : Arguments) (lib : Settings.Library) (orders : Settings.Orders) (env : Environment) (disk : Disk) : Execution :=
  match Settings.loadFor lib orders env disk a.workspace a.config with
  | (.error f, events) => ⟨.error (.settings f), disk, events.map Event.alone⟩
  | (.ok s, events) =>
    let e := a.command.execute s a.workspace disk
    { e with occurrences := events.map Event.alone ++ e.occurrences }

end DispatchTree
