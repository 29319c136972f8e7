import Folio.CommandLine.Arguments
import Folio.Deck.Placement
import Folio.Document.Styling
import Folio.Packaging
import Folio.Sample.Deck
import Folio.Sample.Report
import Folio.Sample.Stylesheet
import Folio.Theme.Preset
import Folio.Workspace.Tree

/-!
# Running the command

The command renders a sample and writes it to a file. What it needs of files is a record of three
actions, so that it runs over real files as well as over a workspace.
-/

namespace Folio.CommandLine

/-- The actions on files that the command needs. -/
structure FileActions (m : Type → Type) where
  /-- Reads a file. -/
  read : String → m (Except FileError String)
  /-- Makes a directory and those around it. -/
  makeDirectories : String → m (Except FileError Unit)
  /-- Writes a file. -/
  write : String → String → m (Except FileError Unit)

/-- How a run of the command ends: its exit code and the lines that it reports. -/
structure Outcome where
  /-- The exit code. -/
  code : UInt32
  /-- The lines for the error output. -/
  lines : List String
  deriving DecidableEq

namespace Outcome

/-- The end of a run that failed. -/
def failure (line : String) : Outcome := ⟨1, [line]⟩

/-- The lines as one text. -/
def text (o : Outcome) : String := String.join (o.lines.map (· ++ "\n"))

end Outcome

/-- The text of a sample. -/
def Request.render (request : Request) (styling : Styling) : Except BuildError String := do
  let spacing := if request.compact then .compact else defaultSpacing
  match request.sample with
  | .report => return (← (← Sample.report).styled styling).package spacing
  | .deck =>
    let deck := { Sample.deck with title := request.title.getD Sample.deck.title }
    return (← deck.place styling .widescreen).package spacing

/-- The text of a sample in a theme, or the line that says why there is none. -/
def Request.produce (request : Request) (theme : Theme) : Except String String :=
  match Sample.stylesheet.bind fun sheet => sheet.bind theme with
  | .error e => .error ("Error loading stylesheet: " ++ e.message)
  | .ok styling =>
    match request.render styling with
    | .error e => .error ("Error rendering: " ++ e.message)
    | .ok text => .ok text

section Run

variable {m : Type → Type} [Monad m]

/-- The theme of a request: a built-in one, or one from a file. -/
def loadTheme (files : FileActions m) : Option String → m (Except String Theme)
  | none => pure (.ok Theme.cloudscript)
  | some name =>
    match Theme.preset? name with
    | some theme => pure (.ok theme)
    | none => do
      match ← files.read name with
      | .error e => return .error ("Error reading '" ++ name ++ "': " ++ e.message)
      | .ok text =>
        match Theme.parse text with
        | .error e => return .error ("Error loading theme: " ++ e.message)
        | .ok theme => return .ok theme

/-- Writes a text to a path, whose directory is made first. -/
def save (files : FileActions m) (path text : String) : m Outcome := do
  let parent := Path.parent path
  let made ← if parent = "" then pure (.ok ()) else files.makeDirectories parent
  match made with
  | .error e => return .failure ("Error creating output directory: " ++ e.message)
  | .ok () =>
    match ← files.write path text with
    | .error e => return .failure ("Error writing '" ++ path ++ "': " ++ e.message)
    | .ok () =>
      return ⟨0, ["Wrote '" ++ path ++ "' (" ++ toString text.utf8ByteSize ++ " bytes)"]⟩

/-- Carries out a request. -/
def Request.run (files : FileActions m) (request : Request) : m Outcome := do
  match ← loadTheme files request.theme with
  | .error line => return .failure line
  | .ok theme =>
    match request.produce theme with
    | .error line => return .failure line
    | .ok text => save files request.output text

/-- Runs the command with its arguments. -/
def run (files : FileActions m) (args : List String) : m Outcome :=
  match Request.ofArguments args with
  | .error stop => pure ⟨stop.code, stop.lines⟩
  | .ok request => request.run files

end Run

/-- Takes over a new state of a workspace, unless there is none. -/
def update (result : Workspace → Except FileError Workspace) :
    StateM Workspace (Except FileError Unit) := fun ws =>
  match result ws with
  | .ok ws => (.ok (), ws)
  | .error e => (.error e, ws)

/-- The actions on the files of a workspace. -/
def workspaceFiles : FileActions (StateM Workspace) where
  read path := fun ws => (ws.read path, ws)
  makeDirectories path := update fun ws => ws.makeDirectories path
  write path text := update fun ws => ws.write path text

/-- Runs the command in a workspace. -/
def runIn (ws : Workspace) (args : List String) : Outcome × Workspace :=
  (run workspaceFiles args).run ws

end Folio.CommandLine
