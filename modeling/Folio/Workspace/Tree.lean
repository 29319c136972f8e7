import Folio.Workspace.Place

/-!
# Workspaces

All files with the directory in which the command works, and how files are read and written and
directories made there. Each action follows the path first; what it then finds at the last part
decides whether it can be done.
-/

namespace Folio

/-- The devices that are always there. -/
def Device.standard : Directory :=
  [("full", .device .full), ("null", .device .null), ("stderr", .device .errors),
    ("stdin", .device .null), ("stdout", .device .output)]

/-- The names of the directory in which the command works, from the root on. -/
def Workspace.standardHome : List String := ["tmp", ".folio"]

/-- What stands in the root before the command is run. -/
def Workspace.standardRoot : Directory :=
  ["bin", "boot", "dev", "etc", "home", "lib", "lib64", "media", "mnt", "opt", "proc", "root",
    "run", "sbin", "srv", "sys", "tmp", "usr", "var"].map fun name =>
      (name, .directory (
        if name = "dev" then Device.standard
        else if name = "tmp" then [(".folio", .directory [])]
        else []))

/-- All files, and what was passed on by devices. -/
structure Workspace where
  /-- What stands in the root. -/
  root : Directory := Workspace.standardRoot
  /-- The names of the working directory, from the root on. -/
  home : List String := Workspace.standardHome
  /-- The text passed on to the output. -/
  printed : String := ""
  /-- The text passed on to the error output. -/
  reported : String := ""

/-- What a path leads to. -/
inductive Target where
  /-- A directory that is there. -/
  | directory
  /-- A name in a directory, where nothing need stand. -/
  | name (place : Place) (name : String)

namespace Workspace

/-- The working directory. -/
def working (ws : Workspace) : Except FileError Place := Place.follow ⟨ws.root, []⟩ ws.home

/-- What a path leads to. All its parts but the last have to name directories. -/
def locate (ws : Workspace) (path : String) : Except FileError Target := do
  if Path.lengthLimit < path.utf8ByteSize then .error .nameTooLong
  else if path = "" then .error .missing
  else
    let start ← if Path.isAbsolute path then .ok ⟨ws.root, []⟩ else ws.working
    let parts := Path.parts path
    let place ← start.follow parts.dropLast
    match parts.getLast? with
    | none => return .directory
    | some last => return if last = "." ∨ last = ".." then .directory else .name place last

/-- The text of the file at a path; devices have none. -/
def read (ws : Workspace) (path : String) : Except FileError String := do
  match ← ws.locate path with
  | .directory => .error .isDirectory
  | .name place name =>
    match ← place.find name with
    | none => .error .missing
    | some (.directory _) => .error .isDirectory
    | some node =>
      if Path.namesDirectory path then .error .notDirectory
      else match node with
        | .file text => .ok text
        | _ => .ok ""

/-- Gives a text to a device. -/
def send (ws : Workspace) (text : String) : Device → Except FileError Workspace
  | .null => .ok ws
  | .full => .error .noSpace
  | .output => .ok { ws with printed := ws.printed ++ text }
  | .errors => .ok { ws with reported := ws.reported ++ text }

/-- Puts a text into the file at a path. -/
def write (ws : Workspace) (path text : String) : Except FileError Workspace := do
  match ← ws.locate path with
  | .directory => .error .isDirectory
  | .name place name =>
    if Path.namesDirectory path then .error .isDirectory
    else
      match ← place.find name with
      | some (.directory _) => .error .isDirectory
      | some (.device d) => ws.send text d
      | _ => .ok { ws with root := (place.put name (.file text)).root }

/-- Makes one directory. -/
def makeDirectory (ws : Workspace) (path : String) : Except FileError Workspace := do
  match ← ws.locate path with
  | .directory => .error .alreadyExists
  | .name place name =>
    match ← place.find name with
    | some _ => .error .alreadyExists
    | none => .ok { ws with root := (place.put name (.directory [])).root }

/-- Whether a path leads to a directory. -/
def isDirectory (ws : Workspace) (path : String) : Bool :=
  match ws.locate path with
  | .ok .directory => true
  | .ok (.name place name) =>
    match place.find name with
    | .ok (some (.directory _)) => true
    | _ => false
  | .error _ => false

/-- Makes one directory, unless it is there. -/
def ensureDirectory (ws : Workspace) (path : String) : Except FileError Workspace :=
  match ws.makeDirectory path with
  | .ok ws => .ok ws
  | .error e => if ws.isDirectory path then .ok ws else .error e

/-- Makes a directory and those around it that are missing, given its parts from the last to the
first. Those around it are made only after it was found that one is missing. -/
def makeDirectoriesUpward (ws : Workspace) : List String → Except FileError Workspace
  | [] => .ok ws
  | part :: outer =>
    if Path.isIdle part then ws.makeDirectoriesUpward outer
    else
      let path := Path.ofUpward (part :: outer)
      match ws.ensureDirectory path with
      | .error .missing => do (← ws.makeDirectoriesUpward outer).ensureDirectory path
      | result => result

/-- Makes the directory at a path and those around it that are missing. -/
def makeDirectories (ws : Workspace) (path : String) : Except FileError Workspace :=
  ws.makeDirectoriesUpward (Path.upward path)

/-- The files in the working directory and below, with their texts. -/
def files (ws : Workspace) : List (String × String) :=
  match ws.working with
  | .ok place => filesBelow "" place.here
  | .error _ => []

/-- The files that are new or have another text than in an earlier state. -/
def changes (ws earlier : Workspace) : List (String × String) :=
  let before := earlier.files
  ws.files.filter fun (path, text) => before.lookup path != some text

end Workspace

end Folio
