import DispatchTree.Files.Fault
import DispatchTree.Files.Path
import Std.Data.ExtTreeMap

/-!
# A file system

Directories, files and symbolic links, each under the list of names that leads to it from the root. Paths are resolved name by
name, and links on the way are followed. Every operation either fails or changes one entry; only the creation of a directory with its
parents consists of several such steps.

Besides the faults that follow from what is on the disk, the system may fail wherever an entry is created, written or read. Where it
will is part of a disk, as a table of defects. Only a file that cannot be written to its end leaves something behind: the bytes that
were written before.
-/

namespace DispatchTree

/-- What stands under a name. -/
inductive Entry where
  | directory
  | file (content : ByteArray)
  | link (target : String)

instance : DecidableEq Entry := fun
  | .directory, .directory => isTrue rfl
  | .file x, .file y =>
    match ByteArray.instDecidableEq x y with
    | isTrue h => isTrue (congrArg _ h)
    | isFalse h => isFalse fun he => h (Entry.file.inj he)
  | .link x, .link y =>
    match decEq x y with
    | isTrue h => isTrue (congrArg _ h)
    | isFalse h => isFalse fun he => h (Entry.link.inj he)
  | .directory, .file _ | .directory, .link _ | .file _, .directory | .file _, .link _ | .link _, .directory | .link _, .file _ =>
    isFalse nofun

/-- The names that lead to an entry from the root. -/
abbrev Location := List String

/-- What goes wrong at a location: the fault, and how many bytes of a file are written there before it shows. There are none if the
file cannot even be opened. -/
structure Defect where
  fault : SystemFault
  written : Option Nat
  deriving DecidableEq, Repr

/-- The entries of a file system, the directory that relative paths start from, and the locations at which the system fails. The root
itself has no entry. -/
structure Disk where
  entries : Std.ExtTreeMap Location Entry
  current : Location
  defects : Std.ExtTreeMap Location Defect := ∅
  deriving DecidableEq

/-- Where a path leads. -/
inductive Place where
  /-- To an entry, or to the root. -/
  | existing (location : Location)
  /-- To a name that is not there, in a directory that is. -/
  | missing (directory : Location) (name : String)
  deriving DecidableEq, Repr

/-- The result of an operation that looks at a disk. -/
abbrev DiskResult := Except DiskFault

namespace Disk

/-- An empty disk with a directory to work in. -/
def workingIn (names : Location) : Disk where
  entries := .ofList ((List.range names.length).map fun i => (names.take (i + 1), Entry.directory))
  current := names

/-- The entry at a location; the root is a directory. -/
def get? (d : Disk) (l : Location) : Option Entry := if l.isEmpty then some .directory else d.entries[l]?

/-- The disk with an entry put at a location. -/
def put (d : Disk) (l : Location) (e : Entry) : Disk := { d with entries := d.entries.insert l e }

/-- Passes a location at which the system does not fail. -/
def checkLocation (d : Disk) (l : Location) : DiskResult Unit :=
  match d.defects[l]? with
  | some defect => .error (.system defect.fault)
  | none => .ok ()

/-- Puts an entry at a location, unless the system fails there. -/
def tryPut (d : Disk) (l : Location) (e : Entry) : DiskResult Disk := do
  d.checkLocation l
  return d.put l e

/-- The longest name, in bytes. -/
def maxName : Nat := 255

/-- The longest path, in bytes. -/
def maxPath : Nat := 4095

/-- The number of links that may be followed on one way. -/
def maxLinks : Nat := 40

/-- The names of a path. A slash at the end is kept as an empty name: what stands before it must be a directory. -/
def namesOf (p : String) : List String :=
  (Path.parts p).filter (· != "") ++ (if p.endsWith "/" then [""] else [])

/-- The directory a path starts from when it is seen from `here`. -/
def startOf (here : Location) (p : String) : Location := if Path.isAbsolute p then [] else here

/-- The end of a way: where it leads, and how many more links could have been followed. -/
structure Arrival where
  place : Place
  linksLeft : Nat
  deriving DecidableEq, Repr

/-- Follows names from a directory while `links` links may still be followed. `jump` goes on from a link: it gets the directory and
the names of the link's target with the names that are left. The last name is followed only on demand, or when a slash stands behind
it. -/
def walkWith (d : Disk) (followLast : Bool) (links : Nat) (jump : Location → List String → DiskResult Arrival) :
    Location → List String → DiskResult Arrival
  | here, [] => .ok ⟨.existing here, links⟩
  | here, name :: rest =>
    if name = "" ∨ name = "." then d.walkWith followLast links jump here rest
    else if name = ".." then d.walkWith followLast links jump here.dropLast rest
    else if name.utf8ByteSize > maxName then .error .nameTooLong
    else
      match d.get? (here ++ [name]) with
      | none => if rest.isEmpty then .ok ⟨.missing here name, links⟩ else .error .notFound
      | some .directory => d.walkWith followLast links jump (here ++ [name]) rest
      | some (.file _) => if rest.isEmpty then .ok ⟨.existing (here ++ [name]), links⟩ else .error .notADirectory
      | some (.link target) =>
        if rest.isEmpty && !followLast then .ok ⟨.existing (here ++ [name]), links⟩
        else jump (startOf here target) (namesOf target ++ rest)

/-- Follows names from a directory, with at most `links` links on the way. -/
def walk (d : Disk) (followLast : Bool) : Nat → Location → List String → DiskResult Arrival
  | 0 => d.walkWith followLast 0 fun _ _ => .error .tooManyLinks
  | links + 1 => d.walkWith followLast (links + 1) (d.walk followLast links)

/-- A path that the system accepts as such. -/
def checkPath (p : String) : DiskResult Unit :=
  if '\x00' ∈ p.toList then .error .nulInName
  else if p.isEmpty then .error .notFound
  else if p.utf8ByteSize > maxPath then .error .nameTooLong
  else .ok ()

/-- Where a path leads. -/
def resolve (d : Disk) (followLast : Bool) (p : String) : DiskResult Place := do
  checkPath p
  return (← d.walk followLast maxLinks (startOf d.current p) (namesOf p)).place

/-- The location and the entry a path leads to. -/
def find (d : Disk) (followLast : Bool) (p : String) : DiskResult (Location × Entry) := do
  match ← d.resolve followLast p with
  | .missing _ _ => .error .notFound
  | .existing l =>
    match d.get? l with
    | some e => .ok (l, e)
    | none => .error .notFound

/-- Whether something stands at a path, a link that leads nowhere included. -/
def hasEntry (d : Disk) (p : String) : Bool := (d.find false p).isOk

/-- Whether a path leads to something. -/
def pathExists (d : Disk) (p : String) : Bool := (d.find true p).isOk

/-- Whether a path leads to a directory. -/
def isDirectory (d : Disk) (p : String) : Bool :=
  match d.find true p with
  | .ok (_, .directory) => true
  | _ => false

/-- Whether a path leads to a file. -/
def isFile (d : Disk) (p : String) : Bool :=
  match d.find true p with
  | .ok (_, .file _) => true
  | _ => false

/-- The bytes of a file. -/
def readBytes (d : Disk) (p : String) : DiskResult ByteArray := do
  match ← d.find true p with
  | (l, .file content) =>
    d.checkLocation l
    return content
  | _ => .error .isADirectory

/-- The text of a file. -/
def readText (d : Disk) (p : String) : DiskResult String := do
  match String.fromUTF8? (← d.readBytes p) with
  | some s => .ok s
  | none => .error .notText

/-- The target of a link. -/
def readLink (d : Disk) (p : String) : DiskResult String := do
  match ← d.find false p with
  | (l, .link target) =>
    d.checkLocation l
    return target
  | _ => .error .invalidArgument

/-- The names of a path without the last one, the last one, and whether a slash stands at the end. The root has no last name. -/
def splitNames (p : String) : List String × Option String × Bool :=
  let names := (Path.parts p).filter (· != "")
  (names.dropLast, names.getLast?, p.endsWith "/")

/-- The location at which a new entry may be put: its directory is there and the name is free. A slash at the end is allowed only
for a directory. -/
def freeLocation (d : Disk) (p : String) (forDirectory : Bool) : DiskResult Location := do
  checkPath p
  let (above, last, slash) := splitNames p
  match (← d.walk true maxLinks (startOf d.current p) (above ++ [""])).place with
  | .missing _ _ => .error .notFound
  | .existing here =>
    match last with
    | none => .error .alreadyExists
    | some name =>
      if name = "." ∨ name = ".." then .error .alreadyExists
      else if name.utf8ByteSize > maxName then .error .nameTooLong
      else if (d.get? (here ++ [name])).isSome then .error .alreadyExists
      else if slash && !forDirectory then .error .notFound
      else .ok (here ++ [name])

/-- Creates a directory. -/
def makeDirectory (d : Disk) (p : String) : DiskResult Disk := do
  d.tryPut (← d.freeLocation p true) .directory

/-- Creates a link. The target is checked as a path first. -/
def makeLink (d : Disk) (target p : String) : DiskResult Disk := do
  if '\x00' ∈ target.toList ∨ '\x00' ∈ p.toList then .error .nulInName
  else
    checkPath target
    d.tryPut (← d.freeLocation p false) (.link target)

/-- The location of the file that is written under a path that is seen from `here`, while `links` links may still be followed. No
slash may stand behind the last name, neither in the path nor in the target of a link. Every round but the last follows a link, so
that more rounds than links are enough. -/
def fileLocationWithin (d : Disk) : Nat → Nat → Location → String → DiskResult Location
  | 0, _, _, _ => .error .tooManyLinks
  | rounds + 1, links, here, p => do
    let (above, last, slash) := splitNames p
    let arrival ← d.walk true links (startOf here p) (above ++ [""])
    match arrival.place with
    | .missing _ _ => .error .notFound
    | .existing here =>
      match last with
      | none => .error .isADirectory
      | some name =>
        if slash ∨ name = "." ∨ name = ".." then .error .isADirectory
        else if name.utf8ByteSize > maxName then .error .nameTooLong
        else
          match d.get? (here ++ [name]) with
          | none | some (.file _) => .ok (here ++ [name])
          | some .directory => .error .isADirectory
          | some (.link target) =>
            match arrival.linksLeft with
            | 0 => .error .tooManyLinks
            | left + 1 => d.fileLocationWithin rounds left here target

/-- The location of the file that is written under a path: an existing file, or a free name. -/
def fileLocation (d : Disk) (p : String) : DiskResult Location := do
  checkPath p
  d.fileLocationWithin (maxLinks + 1) maxLinks d.current p

/-- Writes a file, which is created if it is not there. -/
def writeBytes (d : Disk) (p : String) (content : ByteArray) : DiskResult Disk := do
  d.tryPut (← d.fileLocation p) (.file content)

/-- The disk after the writing of a file has failed: the bytes are there that were written before the system failed. -/
def afterFailedWrite (d : Disk) (p : String) (content : ByteArray) : Disk :=
  match d.fileLocation p with
  | .error _ => d
  | .ok l =>
    match d.defects[l]?.bind Defect.written with
    | some n => d.put l (.file (content.extract 0 n))
    | none => d

/-- Writes a text to a file. -/
def writeText (d : Disk) (p s : String) : DiskResult Disk := d.writeBytes p s.toUTF8

/-- Adds a text at the end of a file, which is created if it is not there. -/
def appendText (d : Disk) (p s : String) : DiskResult Disk := do
  let l ← d.fileLocation p
  match d.get? l with
  | some (.file content) => d.tryPut l (.file (content ++ s.toUTF8))
  | _ => d.tryPut l (.file s.toUTF8)

/-- Creates a directory unless there is one; the fault of a path that cannot be one. -/
def ensureDirectory (d : Disk) (p : String) : DiskResult Disk :=
  match d.makeDirectory p with
  | .ok d => .ok d
  | .error f => if d.isDirectory p then .ok d else .error f

/-- Creates a directory with the directories above it. What was created stays when a later step fails. -/
def makeDirectoriesWithin : Nat → Disk → String → DiskResult Unit × Disk
  | 0, d, _ => (.error .notFound, d)
  | fuel + 1, d, p =>
    if p.isEmpty then (.ok (), d)
    else
      match d.makeDirectory p with
      | .ok d => (.ok (), d)
      | .error .notFound =>
        match Path.parent? p with
        | none => (.error .notFound, d)
        | some above =>
          match makeDirectoriesWithin fuel d above with
          | (.error f, d) => (.error f, d)
          | (.ok (), d) =>
            match d.ensureDirectory p with
            | .ok d => (.ok (), d)
            | .error f => (.error f, d)
      | .error f => if d.isDirectory p then (.ok (), d) else (.error f, d)

/-- Creates a directory with the directories above it. -/
def makeDirectories (d : Disk) (p : String) : DiskResult Unit × Disk := makeDirectoriesWithin (p.length + 1) d p

/-- Removes what stands at a path with everything below it. -/
def remove (d : Disk) (p : String) : DiskResult Disk := do
  let (l, _) ← d.find false p
  return { d with entries := d.entries.filter fun k _ => !l.isPrefixOf k }

/-- Everything below a directory: the names from there, and the entry. -/
def below (d : Disk) (l : Location) : List (Location × Entry) :=
  d.entries.toList.filterMap fun (k, e) =>
    if l.isPrefixOf k && k.length > l.length then some (k.drop l.length, e) else none

/-- Everything below a directory with its path from there, in the order of the paths. -/
def listing (d : Disk) (p : String) : DiskResult (List (String × Entry)) := do
  match ← d.find true p with
  | (l, .directory) =>
    let paths := (d.below l).map fun (names, e) => ("/".intercalate names, e)
    .ok (paths.mergeSort fun a b => a.1 ≤ b.1)
  | _ => .error .notADirectory

end Disk

end DispatchTree
