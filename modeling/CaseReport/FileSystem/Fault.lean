/-!
# Faults of the file system

Why the system refuses a request on a file.
-/

namespace CaseReport

/-- Why the system refuses a request. -/
inductive SystemFault where
  | noEntry
  | inputOutput
  | busy
  | alreadyExists
  | notDirectory
  | isDirectory
  | noSpace
  | nameTooLong
  | tooManyLinks
  /-- The path holds the character NUL, so the request never reaches the system. -/
  | nulInName
  deriving Repr, DecidableEq

/-- The system's text for a fault, with its number. -/
def SystemFault.message : SystemFault → String
  | .noEntry => "No such file or directory (os error 2)"
  | .inputOutput => "Input/output error (os error 5)"
  | .busy => "Device or resource busy (os error 16)"
  | .alreadyExists => "File exists (os error 17)"
  | .notDirectory => "Not a directory (os error 20)"
  | .isDirectory => "Is a directory (os error 21)"
  | .noSpace => "No space left on device (os error 28)"
  | .nameTooLong => "File name too long (os error 36)"
  | .tooManyLinks => "Too many levels of symbolic links (os error 40)"
  | .nulInName => "file name contained an unexpected NUL byte"

end CaseReport
