import WireSchema.CommandLine.Options
import WireSchema.Disk.Path

/-!
# Commands

What the program can be asked to do, and how it is asked on the command line.
-/

namespace WireSchema.CommandLine

def programName : String := "msggen"

/-- One thing to do. -/
inductive Command where
  /-- Writes both trees. -/
  | generate (messages addresses host embedded : Path) (config : Option Path) (force : Bool)
  /-- Compiles a schema and prints a summary. -/
  | check (messages : Path) (addresses config : Option Path)
  /-- Compares a tree with its manifest. -/
  | verify (root : Path)
  /-- Prints the address table. -/
  | addresses (addresses : Path) (config : Option Path)
deriving Repr, DecidableEq

/-- A command and how much to report. -/
structure Invocation where
  verbose : Bool
  command : Command
deriving Repr, DecidableEq

/-! ## Options -/

/-- More log lines. -/
def verboseOption : OptionSpec := ⟨"verbose", some 'v', "--verbose...", .counted⟩

def helpOption : OptionSpec := ⟨"help", some 'h', "--help", .help⟩

/-- The version of the program. -/
def versionOption : OptionSpec := ⟨"version", some 'V', "--version", .version⟩

/-- The configuration file. -/
def configOption : OptionSpec := ⟨"config", some 'c', "--config <CONFIG>", .valued⟩

/-- The root of the host tree. -/
def hostOption : OptionSpec := ⟨"host-out", none, "--host-out <HOST_OUT>", .valued⟩

/-- The root of the embedded tree. -/
def embeddedOption : OptionSpec := ⟨"embedded-out", none, "--embedded-out <EMBEDDED_OUT>", .valued⟩

/-- Takes over directories with other contents. -/
def forceOption : OptionSpec := ⟨"force", some 'f', "--force", .flag⟩

/-! ## Grammars -/

/-- What may stand in front of the name of a command. -/
def topGrammar : Grammar := ⟨[verboseOption, helpOption, versionOption], []⟩

inductive CommandName where
  | generate | check | verify | addresses
deriving Repr, DecidableEq

def CommandName.of? : String → Option CommandName
  | "generate" => some .generate
  | "check" => some .check
  | "verify" => some .verify
  | "addresses" => some .addresses
  | _ => none

/-- What may stand behind the name of a command. -/
def CommandName.grammar : CommandName → Grammar
  | .generate =>
    ⟨[verboseOption, helpOption, hostOption, embeddedOption, configOption, forceOption],
      ["<MESSAGES>", "<ADDRESSES>"]⟩
  | .check => ⟨[verboseOption, helpOption, configOption], ["<MESSAGES>", "[ADDRESSES]"]⟩
  | .verify => ⟨[verboseOption, helpOption], ["<DIR>"]⟩
  | .addresses => ⟨[verboseOption, helpOption, configOption], ["<ADDRESSES>"]⟩

/-- The command from what was read for it, if nothing is missing. -/
def CommandName.build? (name : CommandName) (r : Reading) : Option Command :=
  let value? (spec : OptionSpec) : Option Path := (r.value? spec.long).map Path.mk
  let config := value? configOption
  match name, r.positionals.map Path.mk with
  | .generate, [first, second] => do
    some (.generate first second (← value? hostOption) (← value? embeddedOption) config
      (r.has forceOption.long))
  | .check, [first] => some (.check first none config)
  | .check, [first, second] => some (.check first (some second) config)
  | .verify, [first] => some (.verify first)
  | .addresses, [first] => some (.addresses first config)
  | _, _ => none

/-! ## Reading -/

/-- What the words behind `help` ask for: a command, and nothing below it. -/
def readHelp : List String → Stop
  | [] => .help
  | word :: rest =>
    if (CommandName.of? word).isSome || word == "help" then
      match rest with
      | [] => .help
      | extra :: _ => .fault (.unknownCommand extra)
    else .fault (.unknownCommand word)

/-- The command behind its name. -/
def readCommand (name : CommandName) (top : Reading) (words : List String) :
    Except Stop Invocation := do
  let r ← Reading.run name.grammar words
  match name.build? r with
  | some command => return ⟨top.has verboseOption.long || r.has verboseOption.long, command⟩
  | none => throw (.fault .requiredMissing)

/-- A whole command line: options, the name of a command, and what belongs to it. -/
def readWords (top : Reading) : List String → Except Stop Invocation
  | [] => .error (if top.switches.isEmpty then .nothingGiven
      else .fault (.commandMissing programName))
  | word :: rest =>
    match CommandName.of? word, top.escaped with
    | some name, false => readCommand name top rest
    | some _, true => .error (.fault (.unexpectedArgument word))
    | none, escaped =>
      if word == "help" then
        .error (if escaped then .fault (.unexpectedArgument word) else readHelp rest)
      else if escaped || !word.startsWith "-" || word == "-" then
        .error (.fault (.unknownCommand word))
      else do readWords (← top.step topGrammar word) rest

/-- Reads the words of a command line. -/
def Invocation.read (words : List String) : Except Stop Invocation := readWords {} words

end WireSchema.CommandLine
