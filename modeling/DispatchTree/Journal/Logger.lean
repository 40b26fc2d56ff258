import DispatchTree.Journal.Filter
import DispatchTree.Journal.Line
import DispatchTree.Settings

/-!
# Loggers

A logger holds what is needed to write the journal: the filter, the layout and the place where the lines go. It is set up from
settings and from three variables of the environment, which come first. Everything is checked even if nothing will be written, and
the file of a journal is created at once.
-/

namespace DispatchTree

/-- Where the lines of the journal go. -/
inductive Destination where
  | stdout
  | stderr
  | file (path : String)
  deriving DecidableEq, Repr

/-- What is needed to write the journal. -/
structure Logger where
  filter : Filter
  layout : Layout
  destination : Destination
  deriving DecidableEq, Repr

/-- Why the journal cannot be written. -/
inductive JournalFault where
  | directive (fault : DirectiveFault)
  | format (text : String)
  | output (text : String)
  | directory (fault : DiskFault)
  | file (path : String) (fault : DiskFault)
  deriving DecidableEq, Repr

/-- How a fault is reported. -/
def JournalFault.message : JournalFault → String
  | .directive f => "Invalid log directive: " ++ f.message
  | .format t => "Invalid log format: " ++ t ++ " (must be 'json' or 'text')"
  | .output t => "Invalid log output: " ++ t ++ " (must be 'stdout', 'stderr' or 'file')"
  | .directory f => "Failed to create log directory: " ++ f.message
  | .file path f => "Failed to open log file " ++ Text.quote path ++ ": " ++ f.message

/-- An order of the parts of the program with their levels. -/
abbrev PartOrder := Settings.Arrangement (String × String)

namespace Logger

/-- The directives for parts of the program. -/
def partDirectives (modules : List (String × String)) : Except DirectiveFault (List Directive) :=
  modules.mapM fun (part, level) => Directive.parse (part ++ "=" ++ level)

/-- The filter of settings, with notes on what is passed over. The parts of the program stand in no order of their own. -/
def settingsFilter (order : PartOrder) (s : JournalSettings) : Except JournalFault Filter × List String :=
  if s.level = "off" then (.ok (Filter.uniform none), [])
  else
    let (f, notes) := Filter.parseLeniently s.level
    match partDirectives (order.arrange s.modules.toList) with
    | .ok ds => (.ok (ds.foldl Filter.add f), notes)
    | .error fault => (.error (.directive fault), notes)

/-- The filter of the environment, if it has a well-formed one. -/
def environmentFilter? (env : Environment) : Option Filter :=
  (env.get? "TAPELINK_LOG").bind fun text => (Filter.parse text).toOption

/-- The filter of the journal, with notes on what is passed over. -/
def chooseFilter (order : PartOrder) (s : JournalSettings) (env : Environment) : Except JournalFault Filter × List String :=
  match environmentFilter? env with
  | some f => (.ok f, [])
  | none => settingsFilter order s

/-- Whether lines are JSON, by the name of a format. -/
def formatOf? : String → Option Bool
  | "json" => some true
  | "text" => some false
  | _ => none

/-- Whether lines are JSON. A format of the environment that does not exist is passed over. -/
def chooseFormat (s : JournalSettings) (env : Environment) : Except JournalFault Bool :=
  match ((env.get? "TAPELINK_LOG_FORMAT").bind formatOf?).or (formatOf? s.format) with
  | some json => .ok json
  | none => .error (.format s.format)

/-- Where the lines go. -/
def chooseDestination (s : JournalSettings) (env : Environment) : Except JournalFault Destination :=
  let name := (env.get? "TAPELINK_LOG_OUTPUT").getD s.output
  match name with
  | "stdout" => .ok .stdout
  | "stderr" => .ok .stderr
  | "file" => .ok (.file s.file)
  | _ => .error (.output name)

/-- Creates the directory of a journal's file, if its path names one. -/
def makeDirectory (disk : Disk) (path : String) : Except JournalFault Unit × Disk :=
  match Path.parent? path with
  | none => (.ok (), disk)
  | some parent =>
    if parent.isEmpty then (.ok (), disk)
    else
      let (result, disk) := disk.makeDirectories parent
      (result.mapError .directory, disk)

/-- Creates the file of a journal unless it is there. -/
def prepare (disk : Disk) : Destination → Except JournalFault Unit × Disk
  | .file path =>
    match makeDirectory disk path with
    | (.error f, disk) => (.error f, disk)
    | (.ok (), disk) =>
      match disk.appendText path "" with
      | .ok disk => (.ok (), disk)
      | .error f => (.error (.file path f), disk)
  | _ => (.ok (), disk)

/-- The layout of lines: a file is never colored. -/
def layoutFor (s : JournalSettings) (json : Bool) (destination : Destination) : Layout :=
  if json then .json
  else
    match destination with
    | .file _ => .text false
    | _ => .text s.color

/-- A logger with a filter. -/
def withFilter (s : JournalSettings) (env : Environment) (filter : Filter) : Except JournalFault Logger := do
  let json ← chooseFormat s env
  let destination ← chooseDestination s env
  return ⟨filter, layoutFor s json destination, destination⟩

/-- What came of setting up a logger. -/
structure Setup where
  result : Except JournalFault Logger
  /-- Notes on directives that are passed over. -/
  notes : List String
  disk : Disk

/-- Sets up a logger. -/
def setUp (order : PartOrder) (s : JournalSettings) (env : Environment) (disk : Disk) : Setup :=
  let (filter, notes) := chooseFilter order s env
  match filter.bind (withFilter s env) with
  | .error f => ⟨.error f, notes, disk⟩
  | .ok logger =>
    let (result, disk) := prepare disk logger.destination
    ⟨result.map fun _ => logger, notes, disk⟩

end Logger

end DispatchTree
