/-!
# Paths

A path is a text whose parts stand between slashes. Empty parts and dots lead nowhere. The parent
of a path is the text before its last part that leads somewhere, so that a path of one such part
has an empty parent, or the root when it starts there.
-/

namespace Folio.Path

/-- The greatest number of bytes in a path. -/
def lengthLimit : Nat := 4095

/-- The greatest number of bytes in a name. -/
def nameLimit : Nat := 255

/-- The parts of a path, dots among them. -/
def parts (path : String) : List String := (path.splitOn "/").filter (· ≠ "")

/-- Whether a part of a path leads nowhere. -/
def isIdle (part : String) : Bool := part = "" ∨ part = "."

/-- Whether a path leads from the root of all files. -/
def isAbsolute (path : String) : Bool := path.startsWith "/"

/-- Whether a path ends in a slash, which only directories may. -/
def namesDirectory (path : String) : Bool := path.endsWith "/"

/-- The text that has some parts, given from the last to the first. -/
def ofUpward (upward : List String) : String := "/".intercalate upward.reverse

/-- The texts between the slashes of a path, from the last to the first that leads somewhere. -/
def upward (path : String) : List String := (path.splitOn "/").reverse.dropWhile isIdle

/-- The path without its last part. -/
def parent (path : String) : String :=
  match ((upward path).drop 1).dropWhile isIdle with
  | [] => if isAbsolute path then "/" else ""
  | outer => ofUpward outer

end Folio.Path
