import QuotaWatch.Command.Arguments

/-!
# Help

A page of help tells what a tool or a command does, how it is called, and what its commands,
arguments and options mean. Explanations stand in a column of their own.
-/

namespace QuotaWatch

/-- The name under which a tool is called. -/
def Tool.name : Tool → String
  | .status => "gauge-status"
  | .dashboard => "gauge-dashboard"
  | .ledger => "gauge-ledger"

def toolVersion : String := "0.1.0"

def Tool.versionText (t : Tool) : String := s!"{t.name} {toolVersion}\n"

/-! ## Pages -/

/-- A heading, and terms with their explanations. -/
structure HelpSection where
  heading : String
  rows : List (String × String)
  deriving DecidableEq, Repr

structure HelpPage where
  about : String
  usage : String
  sections : List HelpSection
  deriving DecidableEq, Repr

/-- A text with blanks behind it up to a width. -/
def padRight (width : Nat) (text : String) : String :=
  String.ofList (text.toList ++ List.replicate (width - text.length) ' ')

/-- Columns of the longest term. -/
def HelpSection.width (s : HelpSection) : Nat :=
  s.rows.foldl (fun n row => max n row.1.length) 0

/-- A section as text, with a blank line above. -/
def HelpSection.text (s : HelpSection) : String :=
  let row (r : String × String) : String := s!"  {padRight s.width r.1}  {r.2}\n"
  s!"\n{s.heading}:\n" ++ String.join (s.rows.map row)

def HelpPage.text (p : HelpPage) : String :=
  s!"{p.about}\n\nUsage: {p.usage}\n" ++ String.join (p.sections.map HelpSection.text)

/-! ## What the pages say -/

/-- The option for the configuration file. -/
def configRow : String × String :=
  ("    --config <PATH>",
    "Config file to use instead of GAUGE_CONFIG or the per-user default")

/-- The option for help. -/
def helpRow : String × String := ("-h, --help", "Print help")

/-- The option for the version. -/
def versionRow : String × String := ("-V, --version", "Print version")

/-- What `summary` does. -/
def summaryAbout : String := "Totals per model and per system"

/-- What `rotate` does. -/
def rotateAbout : String := "Archive the current ledger under archive/ and start a new one"

/-- What `help` does. -/
def helpAbout : String := "Print this message or the help of the given subcommand(s)"

def Tool.page : Tool → HelpPage
  | .status =>
    { about := "Print the current quota status once and exit"
      usage := "gauge-status [OPTIONS]"
      sections :=
        [⟨"Options",
          [configRow,
           ("    --json", "Print the resource status as JSON instead of the dashboard"),
           ("    --plain", "Disable colors"), helpRow, versionRow]⟩] }
  | .dashboard =>
    { about := "Live quota dashboard; stop with Ctrl+C"
      usage := "gauge-dashboard [OPTIONS]"
      sections :=
        [⟨"Options",
          [configRow, ("    --plain", "Disable colors"),
           ("    --no-ledger", "Do not write snapshots to the usage ledger"), helpRow,
           versionRow]⟩] }
  | .ledger =>
    { about := "Usage ledger maintenance"
      usage := "gauge-ledger [OPTIONS] <COMMAND>"
      sections :=
        [⟨"Commands",
          [("summary", summaryAbout), ("rotate", rotateAbout), ("help", helpAbout)]⟩,
         ⟨"Options", [configRow, helpRow, versionRow]⟩] }

def HelpTopic.page : HelpTopic → HelpPage
  | .tool t => t.page
  | .summary =>
    { about := summaryAbout
      usage := "gauge-ledger summary [OPTIONS]"
      sections := [⟨"Options", [("    --json", ""), helpRow]⟩] }
  | .rotate =>
    { about := rotateAbout
      usage := "gauge-ledger rotate"
      sections := [⟨"Options", [helpRow]⟩] }
  | .help =>
    { about := helpAbout
      usage := "gauge-ledger help [COMMAND]..."
      sections :=
        [⟨"Arguments", [("[COMMAND]...", "Print help for the subcommand(s)")]⟩] }

/-! ## Refusals -/

/-- What is wrong with a command line; nothing if it asks for help or a version. -/
def Refusal.complaint : Refusal → String
  | .help _ => ""
  | .version _ => ""
  | .nothingGiven => "a command is required"
  | .missingCommand => "a command is required"
  | .unknownCommand => "there is no such command"
  | .unknownArgument => "there is no such argument"
  | .conflict => "some arguments cannot be used together"
  | .badValue => "an option needs a value"
  | .needlessValue => "an option takes no value"

end QuotaWatch
