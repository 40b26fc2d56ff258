import DispatchTree.Document.Json.Reader
import DispatchTree.Document.Toml.Dates
import DispatchTree.Document.Toml.Reader
import DispatchTree.Files.Disk
import DispatchTree.Settings.Order

/-!
# Settings files

A settings file is looked up under its name and, if there is no such file, under the name with the extension of a known format
added. Its format is told by its extension. A file that should be there but is not, or has no known format, or is no text, is a
fault; a file that is not required is then passed over, but when there is a text in it that text must make sense.

Which formats there are, how their texts are read and how faults are worded is left to a library.
-/

namespace DispatchTree.Settings

/-- What reads the text of the settings file at a path. -/
abbrev Reader := String → String → Except String Source

/-- A layer: where it comes from, and its source or what is wrong with it. -/
abbrev Layer := Origin × Except String Source

/-- What settings are read with. -/
structure Library where
  /-- The extensions of settings files and the readers of their texts, in the order in which they are tried. -/
  readers : List (String × Reader)
  /-- The words for a file that is not there. -/
  absent : String → String
  /-- The words for a file without a known format. -/
  unknownFormat : String → String
  /-- The words for layers that come to a value which is not of its kind. If there are several, it depends on the order of the merged
  settings which one is found. -/
  misfit : Order → List Layer → String

/-- The path with an extension added to its last name; a path without a last name has none. -/
def withExtension? (p ext : String) : Option String :=
  (Path.fileName? p).map fun _ => Path.ofParts (Path.trimIdle (Path.parts p)) ++ "." ++ ext

/-- The file that is meant by a path, and the reader of its text. -/
def Library.locate (lib : Library) (disk : Disk) (p : String) : Except String (String × Reader) :=
  if disk.isFile p then
    match (Path.extension? p).bind fun ext => lib.readers.lookup ext with
    | some reader => .ok (p, reader)
    | none => .error (lib.unknownFormat p)
  else
    let found := lib.readers.findSome? fun (ext, reader) => do
      let q ← withExtension? p ext
      if disk.isFile q then some (q, reader) else none
    match found with
    | some file => .ok file
    | none => .error (lib.absent p)

/-- The source in a file. A file that is missing or cannot be read is a fault only when it is required. -/
def Library.fileSource (lib : Library) (disk : Disk) (required : Bool) (p : String) : Except String Source :=
  let missing (text : String) : Except String Source := if required then .error text else .ok []
  match lib.locate disk p with
  | .error text => missing text
  | .ok (q, reader) =>
    match disk.readText q with
    | .error f => missing f.message
    | .ok text => reader q text

mutual

/-- A value as a setting: a date is a text, and a whole number that needs more than 63 bits is a floating-point value. -/
def plain : Document → Document
  | .date s => .string s
  | .integer n => if n < (1 <<< 63 : Nat) then .integer n else .float (Binary64.ofNat n.toNat)
  | .list ds => .list (plainItems ds)
  | .table es => .table (plainEntries es)
  | d => d

/-- Items as settings. -/
def plainItems : List Document → List Document
  | [] => []
  | d :: ds => plain d :: plainItems ds

/-- Entries as settings; of entries with one name the last counts. -/
def plainEntries : List (String × Document) → List (String × Document)
  | [] => []
  | (k, d) :: es =>
    let rest := plainEntries es
    if rest.any (·.1 == k) then rest else (k, plain d) :: rest

end

/-- What is in a text that spells a document, if it is a table. -/
def sourceOf? (parse? : String → Option Document) (text : String) : Option Source :=
  match parse? text with
  | some (.table es) => some (plainEntries es)
  | _ => none

/-- The reader of texts that spell documents. -/
def readerOf (parse? : String → Option Document) : Reader := fun path text =>
  match sourceOf? parse? text with
  | some s => .ok s
  | none => .error ("malformed settings in " ++ path)

/-- The document that a TOML text spells, if its dates are dates. -/
def readToml? (text : String) : Option Document := (Toml.parse? text).bind Toml.withDates?

/-- The library of this program. It knows two formats and says little about faults. -/
def Library.standard : Library where
  readers := [("toml", readerOf readToml?), ("json", readerOf Json.parse?)]
  absent path := "configuration file \"" ++ path ++ "\" not found"
  unknownFormat path := "configuration file \"" ++ path ++ "\" is not of a registered file format"
  misfit _ _ := "a setting is not of its kind"

end DispatchTree.Settings
