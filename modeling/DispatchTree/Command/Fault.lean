import DispatchTree.Build
import DispatchTree.Machine.Load
import DispatchTree.Settings

/-!
# Faults of a command

A command fails because of its machine, of the build, of its report, or of the settings. The full text of a fault says which; the
text for the user says in one case what to do about it.
-/

namespace DispatchTree

/-- Where a fault comes from. -/
inductive FaultSource where
  | machine | compile | settings
  deriving DecidableEq, Repr

/-- The words a fault's text begins with. -/
def FaultSource.label : FaultSource → String
  | .machine => "Machine error: "
  | .compile => "Compile error: "
  | .settings => "Configuration error: "

/-- The full text of a fault with a message. -/
def FaultSource.text (source : FaultSource) (message : String) : String := source.label ++ message

/-- Why a command failed. -/
inductive CommandFault where
  | machine (fault : LoadFault)
  | build (fault : BuildFault)
  | report (fault : ReportFault)
  | settings (fault : SettingsFault)
  deriving DecidableEq, Repr

namespace CommandFault

/-- The full text of a fault. -/
def message : CommandFault → String
  | .machine f => FaultSource.machine.text f.message
  | .build f => FaultSource.compile.text f.message
  | .report f => f.message
  | .settings f => FaultSource.settings.text f.message

/-- The text of a fault for the user. -/
def advice : CommandFault → String
  | .build (.outputRootExists path) => "Output root " ++ path ++ " already exists; remove it before rebuilding"
  | f => f.message

end CommandFault

end DispatchTree
