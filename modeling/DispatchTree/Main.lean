import DispatchTree.Command.Run
import DispatchTree.Text.Utf8
import DispatchTree.Journal.Clock
import Std.Time.DateTime.Timestamp

/-!
# The program

Brings the arguments, the environment and the files that a run may look at into the form that `run` takes, and carries its result
out: new directories and files are written, the streams are printed, and the exit code is returned.
-/

namespace DispatchTree

/-- The variables in a block of texts that end with a zero byte, each a name and a value with an equals sign between them. -/
def environmentOf (block : ByteArray) : Environment :=
  ⟨((Text.decodeLossy block).splitToList (· == '\x00')).filterMap fun entry =>
    match entry.toList.span (· != '=') with
    | (name, _ :: value) => some (String.ofList name, String.ofList value)
    | _ => none⟩

/-- The location of a path seen from a directory, as far as the text tells. -/
def locationOf (here : Location) (p : String) : Location :=
  (Path.parts p).foldl
    (fun l name => if name = "" ∨ name = "." then l else if name = ".." then l.dropLast else l ++ [name])
    (Disk.startOf here p)

/-- The absolute path of a location. -/
def pathOf (l : Location) : String := "/" ++ "/".intercalate l

/-- A settings file and the files that are tried in its place. -/
def settingsFiles (p : String) : List String :=
  p :: Settings.Library.standard.readers.filterMap fun (ext, _) => Settings.withExtension? p ext

/-- The settings files a run looks at. -/
def Arguments.settingsPaths (a : Arguments) (env : Environment) : List String :=
  (match a.config with
    | some file => [file]
    | none => (Settings.workspaceFiles env a.workspace).map Prod.snd).flatMap settingsFiles

/-- The other files a run looks at, once its settings files are known. -/
def Arguments.workPaths (a : Arguments) (env : Environment) (disk : Disk) : List String :=
  let root := match a.command, (Settings.loadFor .standard .listed env disk a.workspace a.config).1 with
    | .build _ (some output), _ => [Path.join a.workspace output]
    | .build _ none, .ok s => [s.resolveRoot a.workspace]
    | _, _ => []
  (a.command.machinePath?.map (Path.join a.workspace)).toList ++ root ++
    (a.journalSettings .standard .listed env disk).toOption.toList.map JournalSettings.file

/-- What stands at a location. A link is looked through; one that leads nowhere leads to itself. -/
def readEntry (l : Location) : IO (Option Entry) := do
  let path := (← IO.currentDir) / pathOf l
  try
    match (← path.metadata).type with
    | .dir => return some .directory
    | _ => return some (.file (← IO.FS.readBinFile path))
  catch _ =>
    try
      let _ ← path.symlinkMetadata
      return some (.link (pathOf l))
    catch _ => return none

/-- The disk with what stands at a path and above it. -/
def addPath (disk : Disk) (p : String) : IO Disk := do
  let location := locationOf disk.current p
  let mut disk := disk
  for n in List.range location.length do
    let l := location.take (n + 1)
    if let some e ← readEntry l then disk := disk.put l e
  return disk

/-- The entries a run has added or changed. -/
def changes (before after : Disk) : List (Location × Entry) :=
  after.entries.toList.filter fun (l, e) => before.entries[l]? != some e

/-- Writes new directories and files. -/
def writeChange (l : Location) : Entry → IO Unit
  | .directory => IO.FS.createDir (pathOf l)
  | .file content => IO.FS.writeBinFile (pathOf l) content
  | .link _ => pure ()

/-- Whether an entry is a link, which this layer has no means to create. -/
def isLink : Entry → Bool
  | .link _ => true
  | _ => false

/-- The time now. -/
def currentTime : IO String := do
  let now := (← Std.Time.Timestamp.now).toNanosecondsSinceUnixEpoch.val.toNat
  return Clock.text (now / 1000000000) (now % 1000000000)

/-- Runs the program with the arguments of the process. -/
def runProcess (args : List String) : IO UInt32 := do
  let env := environmentOf (← IO.FS.readBinFile "/proc/self/environ")
  let mut disk := Disk.workingIn (locationOf [] (← IO.currentDir).toString)
  if let .ok a := Arguments.parse args then
    for p in a.settingsPaths env do disk ← addPath disk p
    for p in a.workPaths env disk do disk ← addPath disk p
  let result := run .standard .listed (← currentTime) args env disk
  let changed := changes disk result.disk
  for (l, e) in changed do writeChange l e
  IO.print result.stdout
  IO.eprint result.stderr
  if changed.any fun (_, e) => isLink e then
    IO.eprintln "Symbolic links cannot be created on this platform; the tree has none"
    return 1
  return result.exit.toUInt32

end DispatchTree

/-- The entry point of the program. -/
def main (args : List String) : IO UInt32 := DispatchTree.runProcess args
