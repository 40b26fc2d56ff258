import DispatchTree.Journal.Event
import DispatchTree.Settings.Environment
import DispatchTree.Settings.Source
import DispatchTree.Settings.Value

/-!
# Settings

The settings of the program: the width of the display, the root of the output, and how the journal is written. They are gathered
from built-in defaults, settings files and the environment; only the result is checked.
-/

namespace DispatchTree

/-- How the journal is written. -/
structure JournalSettings where
  level : String
  format : String
  output : String
  file : String
  color : Bool
  /-- Levels of parts of the program. -/
  modules : Std.ExtTreeMap String String
  deriving DecidableEq

/-- The settings of the program. -/
structure Settings where
  width : UInt16
  outputRoot : String
  journal : JournalSettings
  deriving DecidableEq

/-- What is wrong with the values of settings. -/
inductive SettingFault where
  | widthTooSmall (width : Nat)
  | emptyRoot
  deriving DecidableEq, Repr

/-- Why settings could not be loaded. -/
inductive SettingsFault where
  /-- A source cannot be read, or a value is not of its kind. -/
  | unreadable (text : String)
  /-- A source asks for a place in a list that cannot be had. -/
  | place (fault : Settings.PlaceFault)
  | invalid (faults : List SettingFault)
  deriving DecidableEq, Repr

namespace JournalSettings

/-- The journal settings without any source. -/
def standard : JournalSettings := ⟨"info", "text", "stderr", "tapelink.log", true, ∅⟩

end JournalSettings

namespace Settings

/-- The least width that leaves room for the head and both slides. -/
def minWidth : Nat := 4

/-- The output root unless another is given. -/
def standardRoot : String := "src"

/-- The settings without any source. -/
def standard : Settings := ⟨Display.standard.width, standardRoot, .standard⟩

/-- The display of the settings. -/
def display (s : Settings) : Display := ⟨s.width⟩

/-- The output root seen from a workspace. -/
def resolveRoot (s : Settings) (workspace : String) : String := Path.join workspace s.outputRoot

/-- What is wrong with settings. -/
def faults (s : Settings) : List SettingFault :=
  (if s.width.toNat < minWidth then [.widthTooSmall s.width.toNat] else []) ++
    (if s.outputRoot.isEmpty then [.emptyRoot] else [])

end Settings

/-- How a fault of a value is reported. -/
def SettingFault.message : SettingFault → String
  | .widthTooSmall width =>
    "Render: width " ++ Nat.repr width ++ " is below the minimum of " ++ Nat.repr Settings.minWidth
  | .emptyRoot => "Output: output root cannot be empty"

/-- How a failure to load settings is reported. -/
def SettingsFault.message : SettingsFault → String
  | .unreadable text => text
  | .place fault => fault.message
  | .invalid faults => "Configuration validation failed:\n" ++ "\n".intercalate (faults.map SettingFault.message)

namespace Settings

/-- How one member of a section is read. -/
abbrev Member (σ : Type) := String × (Document → σ → Option σ)

/-- Reads the members of a section that is written as a table. Names the section does not have are passed over. -/
def readEntries (members : List (Member σ)) : List (String × Document) → σ → Option σ
  | [], s => some s
  | (name, d) :: es, s =>
    match members.lookup name with
    | some read => do readEntries members es (← read d s)
    | none => readEntries members es s

/-- Reads the members of a section that is written as the list of its values. -/
def readItems : List (Member σ) → List Document → σ → Option σ
  | (_, read) :: members, d :: ds, s => do readItems members ds (← read d s)
  | _, _, s => some s

/-- Reads a section, starting from its defaults. -/
def readSection (members : List (Member σ)) (d : Document) (s : σ) : Option σ :=
  match d with
  | .table es => readEntries members es s
  | .list ds => readItems members ds s
  | _ => none

/-- The entries of a table of texts. -/
def readTexts : List (String × Document) → Option (List (String × String))
  | [] => some []
  | (name, d) :: es => do
    let text ← asText? d
    return (name, text) :: (← readTexts es)

/-- A table of texts. -/
def readModules : Document → Option (Std.ExtTreeMap String String)
  | .table es => (readTexts es).map fun texts => .ofList texts
  | _ => none

/-- The members of the display section. -/
def renderMembers : List (Member Settings) :=
  [("width", fun d s => (asWidth? d).map fun w => { s with width := w })]

/-- The members of the output section. -/
def outputMembers : List (Member Settings) :=
  [("root", fun d s => (asText? d).map fun r => { s with outputRoot := r })]

/-- The members of the journal section. -/
def journalMembers : List (Member JournalSettings) :=
  [("level", fun d j => (asText? d).map fun t => { j with level := t }),
    ("format", fun d j => (asText? d).map fun t => { j with format := t }),
    ("output", fun d j => (asText? d).map fun t => { j with output := t }),
    ("file", fun d j => (asText? d).map fun t => { j with file := t }),
    ("color", fun d j => (asBool? d).map fun b => { j with color := b }),
    ("modules", fun d j => (readModules d).map fun m => { j with modules := m })]

/-- The sections of the settings. -/
def sections : List (Member Settings) :=
  [("render", readSection renderMembers),
    ("output", readSection outputMembers),
    ("logging", fun d s => (readSection journalMembers d s.journal).map fun j => { s with journal := j })]

/-- The settings in a merged document. -/
def ofDocument? (d : Document) : Option Settings := readSection sections d standard

/-- The source under all others. -/
def defaults : Source :=
  [("render.width", .integer Display.standard.columns), ("output.root", .string standardRoot)]

/-- Lays sources over the settings so far, one after the other, up to the first that cannot be read. -/
def merge : Document → List (Except String Source) → Except SettingsFault Document
  | d, [] => .ok d
  | _, .error text :: _ => .error (.unreadable text)
  | d, .ok s :: rest =>
    match addSource d s with
    | .ok d => merge d rest
    | .error f => .error (.place f)

/-- The settings of sources, if all of them can be read and the values are acceptable. The words for a value that is not of its kind
are given. -/
def ofSources (misfit : String) (sources : List (Except String Source)) : Except SettingsFault Settings := do
  match ofDocument? (← merge (.table []) (.ok defaults :: sources)) with
  | none => .error (.unreadable misfit)
  | some s => if s.faults.isEmpty then .ok s else .error (.invalid s.faults)

/-- The settings of layers. -/
def ofLayers (lib : Library) (orders : Orders) (layers : List Layer) : Except SettingsFault Settings :=
  ofSources (lib.misfit orders.merged layers) (layers.map Prod.snd)

/-- The path of the global settings file. -/
def globalPath? (env : Environment) : Option String :=
  let base := match env.get? "XDG_CONFIG_HOME" with
    | some dir => if dir.isEmpty then none else some dir
    | none => none
  let base := match base with
    | some dir => some dir
    | none => (env.get? "HOME").map (Path.join · ".config")
  base.map fun b => Path.join (Path.join b "tapelink") "config.toml"

/-- The settings files that are looked for, the lowest first. -/
def workspaceFiles (env : Environment) (workspace : String) : List (FileKind × String) :=
  let directory := Path.join workspace "config"
  (globalPath? env).toList.map (.global, ·) ++ [(.base, Path.join directory "config.toml"),
    (.environment, Path.join directory ((env.get? "TAPELINK_ENV").getD "development" ++ ".toml"))]

/-- The layer of a file. -/
def fileLayer (lib : Library) (orders : Orders) (disk : Disk) (required : Bool) (file : FileKind × String) : Layer :=
  let origin := .file file.1 file.2
  (origin, (lib.fileSource disk required file.2).map (orders.source origin).source)

/-- The layers of those files of a workspace that are there. -/
def presentLayers (lib : Library) (orders : Orders) (env : Environment) (disk : Disk) (workspace : String) : List Layer :=
  ((workspaceFiles env workspace).filter fun file => disk.pathExists file.2).map (fileLayer lib orders disk false)

/-- The layer of the variables. -/
def variablesLayer (orders : Orders) (env : Environment) : Layer := (.variables, .ok ((orders.source .variables).source env.source))

/-- The event of a missing global file. -/
def globalEvents (env : Environment) (disk : Disk) : List Event :=
  match globalPath? env with
  | some p => if disk.pathExists p then [] else [.noGlobalFile p]
  | none => []

/-- The event of settings that were loaded. -/
def loadedEvents : Except SettingsFault Settings → List Event
  | .ok s => [.settingsLoaded s.width.toNat s.outputRoot]
  | .error _ => []

/-- Loads the settings of a workspace. The variables are the highest layer. -/
def load (lib : Library) (orders : Orders) (env : Environment) (disk : Disk) (workspace : String) : Except SettingsFault Settings :=
  ofLayers lib orders (presentLayers lib orders env disk workspace ++ [variablesLayer orders env])

/-- Loads the settings from one file, which must be there. -/
def loadFile (lib : Library) (orders : Orders) (env : Environment) (disk : Disk) (file : String) : Except SettingsFault Settings :=
  ofLayers lib orders [fileLayer lib orders disk true (.given, file), variablesLayer orders env]

/-- Loads settings from the given file, or those of the workspace; and what is noted of it. -/
def loadFor (lib : Library) (orders : Orders) (env : Environment) (disk : Disk) (workspace : String) (file : Option String) :
    Except SettingsFault Settings × List Event :=
  match file with
  | some file =>
    let result := loadFile lib orders env disk file
    (result, loadedEvents result)
  | none =>
    let result := load lib orders env disk workspace
    (result, globalEvents env disk ++ loadedEvents result)

end Settings

end DispatchTree
