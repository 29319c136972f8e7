/-!
# Failures of files

Why something could not be read, written or made, and how that is worded.
-/

namespace Folio

/-- Why a file or directory could not be read, written or made. -/
inductive FileError where
  | missing
  | alreadyExists
  | notDirectory
  | isDirectory
  | noSpace
  | nameTooLong
  /-- Another cause, by its wording. -/
  | other (text : String)
  deriving DecidableEq

/-- The wording of a failure, with its number. -/
def FileError.message : FileError → String
  | .missing => "No such file or directory (os error 2)"
  | .alreadyExists => "File exists (os error 17)"
  | .notDirectory => "Not a directory (os error 20)"
  | .isDirectory => "Is a directory (os error 21)"
  | .noSpace => "No space left on device (os error 28)"
  | .nameTooLong => "File name too long (os error 36)"
  | .other text => text

end Folio
