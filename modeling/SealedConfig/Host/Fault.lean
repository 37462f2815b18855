/-!
# Failures of files

What the operating system answers when a file cannot be used, and what a reader can find wrong with what it got. Some
answers tell what stands where; others come of the device or of who asks, and may come at any step.
-/

namespace SealedConfig

/-- Why a file could not be used. -/
inductive FileFault where
  | notFound
  | permissionDenied
  | alreadyExists
  | notDirectory
  | isDirectory
  | nameTooLong
  | notPermitted
  | noSpace
  | invalidText
  | zeroInName
  | noFreeBackup
  | other (description : String)
  deriving DecidableEq, Repr

/-- The wording of a failure. -/
def FileFault.message : FileFault → String
  | .notFound => "No such file or directory (os error 2)"
  | .permissionDenied => "Permission denied (os error 13)"
  | .alreadyExists => "File exists (os error 17)"
  | .notDirectory => "Not a directory (os error 20)"
  | .isDirectory => "Is a directory (os error 21)"
  | .nameTooLong => "File name too long (os error 36)"
  | .notPermitted => "Operation not permitted (os error 1)"
  | .noSpace => "No space left on device (os error 28)"
  | .invalidText => "stream did not contain valid UTF-8"
  | .zeroInName => "file name contained an unexpected NUL byte"
  | .noFreeBackup => "too many backups with the same timestamp"
  | .other description => description

/-- Whether a failure is the operating system's own. -/
def FileFault.isSystem : FileFault → Bool
  | .invalidText | .zeroInName | .noFreeBackup => false
  | _ => true

/-- Whether a failure tells what stands, or does not stand, where a path leads. -/
def FileFault.tellsOfTree : FileFault → Bool
  | .notFound | .alreadyExists | .notDirectory | .isDirectory => true
  | _ => false

/-- Whether a failure may come whatever stands where: of the device, or of what its user may do. -/
def FileFault.isMishap (fault : FileFault) : Bool := fault.isSystem && !fault.tellsOfTree

end SealedConfig
