import Folio.CommandLine.Run

/-!
# The command

Runs the command over the files of the machine.
-/

namespace Folio.CommandLine

/-- The cause of a failure on the machine. -/
def fileError : IO.Error → FileError
  | .noFileOrDirectory .. => .missing
  | .alreadyExists .. => .alreadyExists
  | .inappropriateType _ code _ => if code = 20 then .notDirectory else .isDirectory
  | .resourceExhausted _ 28 _ => .noSpace
  | .invalidArgument _ 36 _ => .nameTooLong
  | e => .other (toString e)

/-- Carries out an action and keeps its failure. -/
def attempt {α : Type} (action : IO α) : IO (Except FileError α) := do
  match ← action.toBaseIO with
  | .ok a => return .ok a
  | .error e => return .error (fileError e)

/-- The actions on the files of the machine. -/
def machineFiles : FileActions IO where
  read path := attempt (IO.FS.readFile path)
  makeDirectories path := attempt (IO.FS.createDirAll path)
  write path text := attempt (IO.FS.writeFile path text)

end Folio.CommandLine

/-- Runs the command. -/
def main (args : List String) : IO UInt32 := do
  let outcome ← Folio.CommandLine.run Folio.CommandLine.machineFiles args
  IO.eprint outcome.text
  return outcome.code
