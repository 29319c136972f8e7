import Folio.Dict
import Folio.Workspace.FileError
import Folio.Workspace.Path

/-!
# Places

Files, devices and directories form a tree. A place is a directory of the tree together with the
directories around it, so that a path is followed part by part, inwards by a name and outwards by
two dots, and the tree is put together again after a change.
-/

namespace Folio

/-- What takes and gives text without keeping it as a file does. -/
inductive Device where
  /-- Takes any text and drops it. -/
  | null
  /-- Has no space for a text. -/
  | full
  /-- Passes text on to the output of the command. -/
  | output
  /-- Passes text on to the error output of the command. -/
  | errors
  deriving DecidableEq

/-- What may stand under a name. -/
inductive Node where
  | file (text : String)
  | device (d : Device)
  /-- A directory, by what stands in it in ascending order of the names. -/
  | directory (entries : List (String × Node))

/-- What stands in a directory. -/
abbrev Directory := List (String × Node)

mutual

/-- The files at and below a path, with their texts. -/
def Node.files (path : String) : Node → List (String × String)
  | .file text => [(path, text)]
  | .device _ => []
  | .directory entries => filesBelow (path ++ "/") entries

/-- The files in a directory and below, by paths that continue a text. -/
def filesBelow (start : String) : List (String × Node) → List (String × String)
  | [] => []
  | (name, node) :: rest => node.files (start ++ name) ++ filesBelow start rest

end

/-- A directory and those around it. -/
structure Place where
  /-- What stands in the directory. -/
  here : Directory
  /-- The directories around it from the inmost on, with the names that lead back inwards. -/
  around : List (String × Directory) := []

namespace Place

/-- What stands under a name. -/
def find (p : Place) (name : String) : Except FileError (Option Node) :=
  if Path.nameLimit < name.utf8ByteSize then .error .nameTooLong
  else .ok (Dict.find name p.here)

/-- The directory around; around the root is the root. -/
def out (p : Place) : Place :=
  match p.around with
  | [] => p
  | (_, outer) :: around => ⟨outer, around⟩

/-- The directory of a name. -/
def enter (p : Place) (name : String) : Except FileError Place := do
  match ← p.find name with
  | some (.directory entries) => .ok ⟨entries, (name, p.here) :: p.around⟩
  | some _ => .error .notDirectory
  | none => .error .missing

/-- Follows one part of a path. -/
def step (p : Place) (part : String) : Except FileError Place :=
  if part = "." then .ok p else if part = ".." then .ok p.out else p.enter part

/-- Follows parts of a path that all have to name directories. -/
def follow (p : Place) (parts : List String) : Except FileError Place := parts.foldlM step p

/-- Puts something under a name. -/
def put (p : Place) (name : String) (node : Node) : Place :=
  { p with here := Dict.place name node p.here }

/-- What stands in the root. -/
def root (p : Place) : Directory :=
  p.around.foldl (fun inner (name, outer) => Dict.place name (.directory inner) outer) p.here

end Place

end Folio
