import QuotaWatch.Disk.Path

/-!
# Command lines

There are three tools, and `Tool.parse` reads their command lines. Words are read from left to
right; the value of an option that stands in a word of its own is looked at only when the next
option or the end is reached. A request for help counts as a refusal to run.
-/

namespace QuotaWatch

inductive Tool where
  /-- Shows the quota once. -/
  | status
  /-- Shows the quota again and again. -/
  | dashboard
  /-- Takes care of the ledger. -/
  | ledger
  deriving DecidableEq, Repr

/-- What the ledger tool can do. -/
inductive LedgerCommand where
  | summary (json : Bool)
  | rotate
  deriving DecidableEq, Repr

/-- What a command line asks for. -/
inductive Invocation where
  | status (config : Option Path) (json plain : Bool)
  | dashboard (config : Option Path) (plain noLedger : Bool)
  | ledger (config : Option Path) (command : LedgerCommand)
  deriving DecidableEq, Repr

/-- The subject of a page of help. -/
inductive HelpTopic where
  | tool (t : Tool)
  | summary
  | rotate
  | help
  deriving DecidableEq, Repr

/-- Why a command line is not carried out. -/
inductive Refusal where
  | help (topic : HelpTopic)
  | version (t : Tool)
  /-- Nothing was said, though a command is needed. -/
  | nothingGiven
  | missingCommand
  | unknownCommand
  | unknownArgument
  | conflict
  | badValue
  | needlessValue
  deriving DecidableEq, Repr

/-! ## Words -/

/-- A word of a command line by its form. -/
inductive Word where
  /-- Two hyphens: no options from here on. -/
  | escape
  /-- An option with a long name, and the value after an equals sign. -/
  | long (name : String) (value : Option String)
  /-- Options with short names. -/
  | short (letters : List Char)
  | plain (text : String)
  deriving DecidableEq, Repr

def Word.ofText (text : String) : Word :=
  match text.toList with
  | ['-', '-'] => .escape
  | '-' :: '-' :: rest =>
    let name := String.ofList (rest.takeWhile (· ≠ '='))
    match rest.dropWhile (· ≠ '=') with
    | [] => .long name none
    | _ :: value => .long name (some (String.ofList value))
  | ['-'] => .plain text
  | '-' :: letters => .short letters
  | _ => .plain text

/-! ## Grammars -/

/-- What may stand on a command line. -/
structure Grammar where
  topic : HelpTopic
  /-- Options without a value. -/
  switches : List String
  /-- The tool whose version can be asked for and whose configuration file can be given. -/
  tool : Option Tool
  /-- Commands, which have command lines of their own. -/
  commands : List String
  deriving DecidableEq, Repr

/-- Options that were read. -/
structure Given where
  config : Option String := none
  /-- The configuration file that was not looked at yet, if its option was read; without a value,
  the next word is its value. -/
  pending : Option (Option String) := none
  switches : List String := []
  deriving DecidableEq, Repr

/-- Takes the path of the configuration file. -/
def Given.setConfig (g : Given) (value : String) : Except Refusal Given :=
  if g.config.isSome then .error .conflict
  else if value.isEmpty then .error .badValue
  else .ok { g with config := some value }

/-- Looks at the configuration file that was not looked at yet. -/
def Given.settle (g : Given) : Except Refusal Given :=
  match g.pending with
  | none => .ok g
  | some none => .error .badValue
  | some (some value) => { g with pending := none }.setConfig value

def Given.setSwitch (g : Given) (name : String) : Except Refusal Given :=
  if g.switches.contains name then .error .conflict
  else .ok { g with switches := name :: g.switches }

/-- Whether the next word is a value. -/
def Given.wantsValue (g : Given) : Bool := g.pending = some none

/-- How far a command line was read. -/
inductive Progress where
  | finished (given : Given)
  /-- A command was reached; the rest is its own command line. -/
  | command (given : Given) (name : String) (rest : List String)
  deriving DecidableEq, Repr

namespace Grammar

/-- Refuses a word that is no option and no command. -/
def stray (g : Grammar) : Refusal :=
  if g.commands.isEmpty then .unknownArgument else .unknownCommand

/-- Reads an option without a value. -/
def bare {α : Type} (value : Option String) (act : Except Refusal α) : Except Refusal α :=
  if value.isSome then .error .needlessValue else act

def long (g : Grammar) (given : Given) (name : String) (value : Option String) :
    Except Refusal Given :=
  if g.switches.contains name then
    bare value (given.settle.bind fun given => given.setSwitch name)
  else
    match name, g.tool with
    | "help", _ => bare value (given.settle.bind fun _ => .error (.help g.topic))
    | "version", some t => bare value (given.settle.bind fun _ => .error (.version t))
    | "config", some _ => do
      let given ← given.settle
      match value with
      | some value => given.setConfig value
      | none => .ok { given with pending := some none }
    | _, _ => .error .unknownArgument

/-- Reads options with short names; there are none but two that end everything. -/
def short (g : Grammar) (given : Given) (letters : List Char) : Refusal :=
  let asked (r : Refusal) : Refusal :=
    match given.settle with
    | .ok _ => r
    | .error r => r
  match letters.head?, g.tool with
  | some 'h', _ => asked (.help g.topic)
  | some 'V', some t => asked (.version t)
  | _, _ => .unknownArgument

/-- Reads what follows two hyphens. -/
def escaped (g : Grammar) (given : Given) : List String → Except Refusal Progress
  | [] => .ok (.finished given)
  | word :: _ => .error (if g.commands.contains word then .unknownArgument else g.stray)

/-- Reads words up to the end or to a command. -/
def read (g : Grammar) (given : Given) : List String → Except Refusal Progress
  | [] => .ok (.finished given)
  | word :: rest =>
    if !given.wantsValue && g.commands.contains word then .ok (.command given word rest)
    else
      match Word.ofText word with
      | .escape => g.escaped given rest
      | .long name value =>
        match g.long given name value with
        | .ok given => g.read given rest
        | .error r => .error r
      | .short letters => .error (g.short given letters)
      | .plain text =>
        if given.wantsValue then g.read { given with pending := some (some text) } rest
        else .error g.stray

/-- Reads a command line that has no commands. -/
def readAll (g : Grammar) (words : List String) : Except Refusal Given := do
  match ← g.read {} words with
  | .finished given => given.settle
  | .command .. => .error .unknownArgument

end Grammar

/-! ## The tools -/

def Tool.grammar : Tool → Grammar
  | .status =>
    { topic := .tool .status, switches := ["json", "plain"], tool := some .status,
      commands := [] }
  | .dashboard =>
    { topic := .tool .dashboard, switches := ["plain", "no-ledger"], tool := some .dashboard,
      commands := [] }
  | .ledger =>
    { topic := .tool .ledger, switches := [], tool := some .ledger,
      commands := ["summary", "rotate", "help"] }

/-- The grammar of the command that sums up the ledger. -/
def summaryGrammar : Grammar :=
  { topic := .summary, switches := ["json"], tool := none, commands := [] }

/-- The grammar of the command that archives the ledger. -/
def rotateGrammar : Grammar :=
  { topic := .rotate, switches := [], tool := none, commands := [] }

/-- The page of help that a list of commands asks for. -/
def helpOn : List String → Refusal
  | [] => .help (.tool .ledger)
  | ["summary"] => .help .summary
  | ["rotate"] => .help .rotate
  | ["help"] => .help .help
  | _ => .unknownCommand

/-- Reads the command line of a command of the ledger tool. -/
def ledgerCommand (name : String) (rest : List String) : Except Refusal LedgerCommand :=
  match name with
  | "summary" => (summaryGrammar.readAll rest).map fun g => .summary (g.switches.contains "json")
  | "rotate" => (rotateGrammar.readAll rest).map fun _ => .rotate
  | _ => .error (helpOn rest)

/-- The configuration file that was given. -/
def Given.configPath (g : Given) : Option Path := g.config.map Path.mk

/-- Reads the command line of the ledger tool. The command is read to its end before a
configuration file in front of it is looked at. -/
def parseLedger (words : List String) : Except Refusal Invocation := do
  match ← Tool.ledger.grammar.read {} words with
  | .finished given =>
    let given ← given.settle
    .error (if given.config.isNone then .nothingGiven else .missingCommand)
  | .command given name rest =>
    let command ← ledgerCommand name rest
    let given ← given.settle
    .ok (.ledger given.configPath command)

/-- Reads the command line of a tool. -/
def Tool.parse (t : Tool) (words : List String) : Except Refusal Invocation :=
  match t with
  | .status => do
    let given ← t.grammar.readAll words
    let json := given.switches.contains "json"
    let plain := given.switches.contains "plain"
    if json && plain then .error .conflict else .ok (.status given.configPath json plain)
  | .dashboard => do
    let given ← t.grammar.readAll words
    .ok (.dashboard given.configPath (given.switches.contains "plain")
      (given.switches.contains "no-ledger"))
  | .ledger => parseLedger words

end QuotaWatch
