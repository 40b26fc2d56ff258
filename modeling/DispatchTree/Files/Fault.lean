import DispatchTree.Text.Blank

/-!
# Faults of the file system

The ways in which an operation on files fails, with the system's number and wording. Some faults follow from what is on the disk, and
those have names. Every other fault of the system is given by its number and its wording: missing permission, a full disk, a broken
device.
-/

namespace DispatchTree

/-- The numbers of the system errors that follow from what is on the disk. -/
def namedErrors : List Nat := [2, 17, 20, 21, 22, 36, 40]

/-- A system error that does not follow from what is on the disk. The system words its errors on one line. -/
structure SystemFault where
  text : String
  number : Nat
  unnamed : number ∉ namedErrors
  oneLine : ∀ c ∈ Text.lineBreaks, c ∉ text.toList
  deriving DecidableEq, Repr

/-- Why an operation on files failed. -/
inductive DiskFault where
  | notFound
  | alreadyExists
  | notADirectory
  | isADirectory
  | invalidArgument
  | nameTooLong
  | tooManyLinks
  /-- A path holds the character that ends a name. -/
  | nulInName
  /-- A file that should hold text holds other bytes. -/
  | notText
  /-- The system failed. -/
  | system (fault : SystemFault)
  deriving DecidableEq, Repr

/-- A system error with its number. -/
def systemError (text : String) (number : Nat) : String := text ++ " (os error " ++ Nat.repr number ++ ")"

/-- How a fault is reported. -/
def DiskFault.message : DiskFault → String
  | .notFound => systemError "No such file or directory" 2
  | .alreadyExists => systemError "File exists" 17
  | .notADirectory => systemError "Not a directory" 20
  | .isADirectory => systemError "Is a directory" 21
  | .invalidArgument => systemError "Invalid argument" 22
  | .nameTooLong => systemError "File name too long" 36
  | .tooManyLinks => systemError "Too many levels of symbolic links" 40
  | .nulInName => "file name contained an unexpected NUL byte"
  | .notText => "stream did not contain valid UTF-8"
  | .system f => systemError f.text f.number

end DispatchTree
