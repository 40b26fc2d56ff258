import DispatchTree.Files.Disk
import DispatchTree.Machine.Description

/-!
# Loading machines from files

The format of a machine file is told by its name: a file whose extension is `json`, in any case of letters, holds JSON, and any
other file holds TOML.
-/

namespace DispatchTree

/-- The name of a format in messages. -/
def Format.name : Format → String
  | .toml => "TOML"
  | .json => "JSON"

/-- How a text of a format that cannot be read is reported. -/
def ReadFault.message (format : Format) : ReadFault → String
  | .malformed => "malformed text"
  | .shape f => f.message format

/-- How a text that does not give a machine is reported. -/
def MachineFault.message : MachineFault → String
  | .text format f => "Malformed " ++ format.name ++ " machine description: " ++ f.message format
  | .description f => f.message

/-- Why a machine could not be loaded. -/
inductive LoadFault where
  | unreadable (path : String) (fault : DiskFault)
  | machine (fault : MachineFault)
  deriving DecidableEq, Repr

/-- How a fault is reported. -/
def LoadFault.message : LoadFault → String
  | .unreadable path f => "Failed to read machine file " ++ Text.quote path ++ ": " ++ f.message
  | .machine f => f.message

/-- The format that the name of a file tells. -/
def Format.ofPath (p : String) : Format :=
  match Path.extension? p with
  | some ext => if ext.map Char.toLower = "json" then .json else .toml
  | none => .toml

/-- Loads a machine from a file. -/
def Machine.load (d : Disk) (path : String) : Except LoadFault Machine := do
  let text ← (d.readText path).mapError (.unreadable path ·)
  (Machine.ofText (.ofPath path) text).mapError .machine

end DispatchTree
