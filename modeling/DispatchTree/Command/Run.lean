import DispatchTree.Command.Execute
import DispatchTree.Journal.Logger

/-!
# Running the program

A run takes the arguments, the environment and the disk, and gives the exit code, the two output streams and the disk afterwards.
It is given the library that settings are read with, and the orders in which they are gone through. The journal is silent unless the
command line asks for it.
-/

namespace DispatchTree

/-- What a run has written so far. -/
structure Console where
  stdout : String
  stderr : String
  disk : Disk

/-- What a run leaves behind. -/
structure RunResult extends Console where
  exit : Nat

namespace Console

/-- Prints a line. -/
def print (c : Console) (s : String) : Console := { c with stdout := c.stdout ++ s ++ "\n" }

/-- Prints a line for errors. -/
def printError (c : Console) (s : String) : Console := { c with stderr := c.stderr ++ s ++ "\n" }

/-- Adds a line to the journal. A line that cannot be added to a file is lost. -/
def addLine (c : Console) (line : String) : Destination → Console
  | .stdout => { c with stdout := c.stdout ++ line }
  | .stderr => { c with stderr := c.stderr ++ line }
  | .file path =>
    match c.disk.appendText path line with
    | .ok disk => { c with disk }
    | .error _ => c

/-- Notes what happens at a time. -/
def note (c : Console) (time : String) (l : Logger) (o : Occurrence) : Console :=
  if l.filter.passes o then c.addLine (l.layout.line time o.event (l.filter.entered [] o.spans)) l.destination else c

/-- Notes what happens one after the other. -/
def noteAll (c : Console) (time : String) (l : Logger) (os : List Occurrence) : Console :=
  os.foldl (fun c o => c.note time l o) c

/-- The run that ends with an exit code. -/
def exitWith (c : Console) (code : Nat) : RunResult := { c with exit := code }

end Console

/-- The orders in which a run goes through its settings. They are loaded twice: for the journal, and for the command. -/
structure RunOrders where
  journal : Settings.Orders
  parts : PartOrder
  command : Settings.Orders

/-- Everything is gone through as it is listed. -/
def RunOrders.listed : RunOrders := ⟨.listed, .listed, .listed⟩

namespace Arguments

/-- The journal settings of a run: those of the settings, if they can be loaded, and over them the options of the command line.
There are none when the settings ask for an impossible place in a list. -/
def journalSettings (a : Arguments) (lib : Settings.Library) (orders : Settings.Orders) (env : Environment) (disk : Disk) :
    Except Settings.PlaceFault JournalSettings := do
  let s ← match (Settings.loadFor lib orders env disk a.workspace a.config).1 with
    | .ok s => .ok s.journal
    | .error (.place f) => .error f
    | .error _ => .ok .standard
  return { s with
    level := a.logLevel.getD (if a.verbose then s.level else "off")
    format := a.logFormat.getD s.format
    output := a.logOutput.getD s.output
    file := a.logFile.getD s.file }

/-- Loads the settings and carries out the command, with a journal. An impossible place in a list and a report that cannot be printed
end the run at once. -/
def runWith (a : Arguments) (lib : Settings.Library) (orders : Settings.Orders) (time : String) (l : Logger) (env : Environment)
    (c : Console) : RunResult :=
  let c := c.note time l Event.starting.alone
  match Settings.loadFor lib orders env c.disk a.workspace a.config with
  | (.error (.place f), events) => ((c.noteAll time l (events.map Event.alone)).printError f.message).exitWith 101
  | (.error f, events) =>
    let fault := CommandFault.settings f
    let failure : Event := .settingsFailed fault.message
    (((c.noteAll time l (events.map Event.alone)).note time l failure.alone).printError fault.advice).exitWith 1
  | (.ok s, events) =>
    let c := c.noteAll time l (events.map Event.alone)
    let e := a.command.execute s a.workspace c.disk
    let c := { c with disk := e.disk }.noteAll time l e.occurrences
    match e.result with
    | .ok text => ((c.note time l Event.succeeded.alone).print text).exitWith 0
    | .error (.report f) => (c.printError f.message).exitWith 101
    | .error f => ((c.note time l (Event.failed f.message).alone).printError f.advice).exitWith 1

/-- Sets up the journal and goes on. An impossible place in a list ends the run before that. -/
def run (a : Arguments) (lib : Settings.Library) (orders : RunOrders) (time : String) (env : Environment) (disk : Disk) : RunResult :=
  match a.journalSettings lib orders.journal env disk with
  | .error f => (Console.printError ⟨"", "", disk⟩ f.message).exitWith 101
  | .ok s =>
    let setup := Logger.setUp orders.parts s env disk
    let c := setup.notes.foldl Console.printError ⟨"", "", setup.disk⟩
    match setup.result with
    | .error f => (c.printError ("Failed to initialize logging: " ++ FaultSource.settings.text f.message)).exitWith 1
    | .ok l => a.runWith lib orders.command time l env c

end Arguments

/-- How the program is used. -/
def usage : String := "Usage: tapelink [OPTIONS] <COMMAND>\n\nCommands:\n  build\n  plan\n  help"

/-- A run that ends with the command line: help that was asked for is no fault. -/
def UsageFault.run (f : UsageFault) (disk : Disk) : RunResult :=
  match f with
  | .helpAsked => (Console.print ⟨"", "", disk⟩ usage).exitWith 0
  | _ => (Console.printError ⟨"", "", disk⟩ usage).exitWith 2

/-- Runs the program at a time. -/
def run (lib : Settings.Library) (orders : RunOrders) (time : String) (args : List String) (env : Environment) (disk : Disk) :
    RunResult :=
  match Arguments.parse args with
  | .ok a => a.run lib orders time env disk
  | .error f => f.run disk

end DispatchTree
