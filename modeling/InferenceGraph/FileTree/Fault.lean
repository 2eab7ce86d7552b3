set_option autoImplicit false

namespace InferenceGraph

inductive FileFault where
  | notPermitted
  | missing
  | denied
  | taken
  | notDirectory
  | isDirectory
  | nameTooLong
  /-- Paths are handed to the system as texts that end at the first zero byte. -/
  | zeroInPath
  deriving DecidableEq, Repr

def FileFault.message : FileFault → String
  | notPermitted => "Operation not permitted (os error 1)"
  | missing => "No such file or directory (os error 2)"
  | denied => "Permission denied (os error 13)"
  | taken => "File exists (os error 17)"
  | notDirectory => "Not a directory (os error 20)"
  | isDirectory => "Is a directory (os error 21)"
  | nameTooLong => "File name too long (os error 36)"
  | zeroInPath => "file name contained an unexpected NUL byte"

end InferenceGraph
