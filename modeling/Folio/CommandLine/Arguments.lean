/-!
# Arguments

What the arguments of the command ask for: flags in any order, then which sample to render, then
where to. Reading stops at the first argument that is refused or asks for help.
-/

namespace Folio.CommandLine

/-- Which sample to render. -/
inductive SampleKind where
  | report
  | deck
  deriving DecidableEq

/-- Where a sample is written unless the arguments say otherwise. -/
def SampleKind.defaultOutput : SampleKind → String
  | .report => "report.json"
  | .deck => "deck.json"

/-- The arguments read so far. -/
structure Arguments where
  /-- The sample to render. -/
  sample : Option SampleKind := none
  /-- The path to write to. -/
  output : Option String := none
  /-- The name of a built-in theme or the path of a theme. -/
  theme : Option String := none
  /-- Whether to write without blanks. -/
  compact : Bool := false
  /-- The title of the deck. -/
  title : Option String := none
  deriving DecidableEq

/-- A request that can be carried out. -/
structure Request where
  /-- The sample to render. -/
  sample : SampleKind
  /-- The path to write to. -/
  output : String
  /-- The name of a built-in theme or the path of a theme. -/
  theme : Option String
  /-- Whether to write without blanks. -/
  compact : Bool
  /-- The title of the deck. -/
  title : Option String
  deriving DecidableEq

/-- Why nothing is rendered. -/
inductive Stop where
  | help
  | themeWithoutValue
  | titleWithoutValue
  | unknownFlag (text : String)
  | unknownSample (text : String)
  | unexpected (text : String)
  | noSample
  deriving DecidableEq

/-- Reads an argument that is no flag: the sample first, the path to write to second. -/
def Arguments.positional (args : Arguments) (text : String) : Except Stop Arguments :=
  if args.sample.isNone then
    if text = "report" then .ok { args with sample := some .report }
    else if text = "deck" then .ok { args with sample := some .deck }
    else .error (.unknownSample text)
  else if args.output.isNone then .ok { args with output := some text }
  else .error (.unexpected text)

/-- Reads further arguments. -/
def Arguments.read (args : Arguments) : List String → Except Stop Arguments
  | [] => .ok args
  | text :: rest =>
    if text = "--compact" ∨ text = "-c" then Arguments.read { args with compact := true } rest
    else if text = "--theme" then
      match rest with
      | [] => .error .themeWithoutValue
      | value :: rest => Arguments.read { args with theme := some value } rest
    else if text = "--title" ∨ text = "-t" then
      match rest with
      | [] => .error .titleWithoutValue
      | value :: rest => Arguments.read { args with title := some value } rest
    else if text = "--help" ∨ text = "-h" then .error .help
    else if text.startsWith "-" then .error (.unknownFlag text)
    else
      match args.positional text with
      | .ok args => Arguments.read args rest
      | .error stop => .error stop

/-- The request that arguments make. -/
def Request.ofArguments (texts : List String) : Except Stop Request := do
  let args ← Arguments.read {} texts
  match args.sample with
  | none => .error .noSample
  | some sample =>
    return {
      sample
      output := args.output.getD sample.defaultOutput
      theme := args.theme
      compact := args.compact
      title := args.title }

/-- The name of the command. -/
def commandName : String := "forge"

/-- The lines that explain the command. -/
def usage : List String :=
  ["forge – sample report/deck renderer (doc-forge)",
    "",
    "Usage:",
    "  " ++ commandName ++
      " <report|deck> [output.json] [--theme <preset|theme.json>] [--compact]",
    "",
    "Arguments:",
    "  <report|deck>   Which bundled sample to render",
    "  [output.json]   Output path (default: report.json / deck.json)",
    "",
    "Flags:",
    "  --theme         Preset name (cloudscript, print) or theme JSON file",
    "  --compact, -c   Write JSON without indentation",
    "  --title, -t     Deck title (deck only)",
    "  --help          Print this message"]

namespace Stop

/-- The lines that say why nothing is rendered. -/
def lines : Stop → List String
  | .help => usage
  | .themeWithoutValue => ["Error: --theme needs a preset name or file."]
  | .titleWithoutValue => ["Error: --title needs a value."]
  | .unknownFlag text => ("Unknown flag: " ++ text) :: usage
  | .unknownSample text => ("Unknown sample: " ++ text) :: usage
  | .unexpected text => ("Unexpected argument: " ++ text) :: usage
  | .noSample => "Error: no sample specified." :: usage

/-- Asking for help is no failure. -/
def code : Stop → UInt32
  | .help => 0
  | _ => 1

end Stop

end Folio.CommandLine
