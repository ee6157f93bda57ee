import WireSchema.CommandLine.Command
import WireSchema.Generate
import WireSchema.Output.Verify
import WireSchema.Report
import WireSchema.Schema.Compile

/-!
# Running commands

Each command as a program on files, and how a run ends: with an exit code and, on failure, a line
that gives the error and its causes.
-/

namespace WireSchema.CommandLine

open Disk Output

/-! ## Errors -/

/-- Why a run failed. -/
inductive RunError where
  | usage (fault : OptionFault)
  /-- Nothing was asked for. -/
  | nothingGiven
  | config (path : Path) (error : ConfigError)
  /-- A hand-written file cannot be read. -/
  | supplement (what : String) (path : Path) (cause : OsError)
  | schema (error : SchemaError)
  | output (error : OutputError)
  /-- A tree is not as its manifest says. -/
  | differs (differing checked : Nat)
deriving Repr, DecidableEq

def configChain : ConfigError → String
  | .unreadable path cause => s!"{(ConfigError.unreadable path cause).message}: {cause.message}"
  | error => error.message

def schemaChain : SchemaError → String
  | .unreadable path cause => s!"{(SchemaError.unreadable path cause).message}: {cause.message}"
  | .config error => configChain error
  | error => error.message

/-- An error of a tree with its cause. -/
def outputChain : OutputError → String
  | .disk path cause => s!"{(OutputError.disk path cause).message}: {cause.message}"
  | error => error.message

/-- What the program prints when it is asked for help. -/
def helpLines : List String := [
  "Message codec compiler for host and embedded targets",
  "",
  "Usage: msggen [OPTIONS] <COMMAND>",
  "",
  "Commands:",
  "  generate   Generate C++ and C sources from a message and an address schema",
  "  check      Compile schemas and print a summary",
  "  verify     Check a generated directory against its manifest checksums",
  "  addresses  Print the allocated address table",
  "  help       Print this message or the help of the given subcommand(s)",
  "",
  "Options:",
  "  -v, --verbose...  Increase log verbosity (-v debug, -vv trace)",
  "  -h, --help        Print help",
  "  -V, --version     Print version"]

namespace RunError

def lines : RunError → List String
  | usage fault => [s!"error: {fault.message}"]
  | nothingGiven => helpLines
  | config path error =>
    [s!"error: Failed to load configuration {path.text}: {configChain error}"]
  | supplement what path cause =>
    [s!"error: Failed to read {what} {path.text}: {cause.message}"]
  | schema error => [s!"error: {schemaChain error}"]
  | output error => [s!"error: {outputChain error}"]
  | differs differing checked =>
    [s!"error: {differing} of {checked} files differ from the manifest"]

def code : RunError → Nat
  | usage _ | nothingGiven => 2
  | config _ error => (SchemaError.config error).code
  | supplement .. | differs .. => 1
  | schema error => error.code
  | output error => error.code

end RunError

/-! ## Files -/

/-- The configuration in a file, or the default one. -/
def loadConfig : Option Path → Program RunError Config
  | none => return {}
  | some path => do
    match ← Program.readText path with
    | .error cause => .fail (.config path (.unreadable path.text cause))
    | .ok text => (Program.ofExcept (Config.parse text)).mapError (.config path)

/-- A schema file. -/
def readSource (path : Path) : Program RunError Source := do
  match ← Program.readText path with
  | .error cause => .fail (.schema (.unreadable path.text cause))
  | .ok text => return ⟨path.text, text⟩

/-- A hand-written file that the configuration names, if it names one. A relative path starts at the
directory of the configuration file. -/
def readSupplement (base : Option Path) (what : String) :
    Option String → Program RunError (Option String)
  | none => return none
  | some file => do
    let path :=
      match base with
      | some directory => directory.join ⟨file⟩
      | none => ⟨file⟩
    match ← Program.readText path with
    | .error cause => .fail (.supplement what path cause)
    | .ok text => return some text

/-- The hand-written files that a configuration names. -/
def readSupplements (config : Option Path) (names : OutputNames) :
    Program RunError Emit.Supplements := do
  let base := config.bind Path.parent?
  let sharedEnums ← readSupplement base "shared enums" names.sharedEnums
  let commonTypes ← readSupplement base "common types" names.commonTypes
  let commonStream ←
    readSupplement base "common types stream operators" names.commonTypesStream
  return ⟨sharedEnums, commonTypes, commonStream⟩

/-- Compiles schema files. Both are read before either is compiled. -/
def compileFiles (config : Config) (messages : Path) (addresses : Option Path) :
    Program RunError Registry := do
  let messages ← readSource messages
  let addresses ←
    match addresses with
    | none => pure none
    | some path => some <$> readSource path
  (Program.ofTraced (compile config messages addresses)).mapError .schema

/-! ## Commands -/

/-- A line that tells of success. -/
def tick (line : String) : String := "✓ " ++ line

/-- A line that tells of a difference. -/
def cross (line : String) : String := "✗ " ++ line

/-- Prints lines. -/
def sayAll (lines : List String) : Program RunError Unit := lines.forM Program.say

/-- What was done to a tree. -/
def summaryLine (label : String) (root : Path) (s : Summary) : String :=
  tick (s!"{label}: {root.text} ({s.written} written, {s.unchanged} unchanged, " ++
    s!"{s.removed.length} removed)")

/-- Compiles a schema and writes both trees. -/
def runGenerate (messages addresses host embedded : Path) (config : Option Path) (force : Bool) :
    Program RunError Unit := do
  let settings ← loadConfig config
  let supplements ← readSupplements config settings.output
  Program.say s!"Compiling {messages.text}"
  let r ← compileFiles settings messages (some addresses)
  let artifacts ←
    (Program.ofTraced (generate settings.output supplements r)).mapError .schema
  let (first, second) ← (writeTrees host embedded force artifacts).mapError .output
  sayAll [
    tick s!"Messages: {r.messages.length} in {r.interfaces.length} interfaces",
    summaryLine "Host" host first,
    summaryLine "Embedded" embedded second]

/-- Compiles a schema and prints what it has. -/
def runCheck (messages : Path) (addresses config : Option Path) : Program RunError Unit := do
  let settings ← loadConfig config
  Program.say s!"Checking schema: {messages.text}"
  let r ← compileFiles settings messages addresses
  sayAll (r.summary.map tick ++ ["", "Schema is valid!"])

/-- Compares a tree with its manifest. -/
def runVerify (root : Path) : Program RunError Unit := do
  Program.say s!"Verifying: {root.text}"
  let report ← (verify root).mapError .output
  sayAll (report.modified.map (fun file => cross s!"modified: {file}") ++
    report.missing.map (fun file => cross s!"missing: {file}"))
  if report.isClean then Program.say (tick s!"{report.checked} files match the manifest")
  else .fail (.differs (report.modified.length + report.missing.length) report.checked)

/-- Prints the address table. -/
def runAddresses (addresses : Path) (config : Option Path) : Program RunError Unit := do
  let settings ← loadConfig config
  let source ← readSource addresses
  let m ← (Program.ofTraced (AddressMap.allocate settings.markers source.file source.text)).mapError
    .schema
  sayAll m.table

def Command.program : Command → Program RunError Unit
  | .generate messageFile addressFile host embedded config force =>
    runGenerate messageFile addressFile host embedded config force
  | .check messageFile addressFile config => runCheck messageFile addressFile config
  | .verify root => runVerify root
  | .addresses addressFile config => runAddresses addressFile config

/-! ## Whole runs -/

/-- What a command line asks for: whether to report everything, and what to do. -/
def session (words : List String) : Bool × Program RunError Unit :=
  match Invocation.read words with
  | .ok invocation => (invocation.verbose, invocation.command.program)
  | .error (.fault fault) => (false, .fail (.usage fault))
  | .error .nothingGiven => (false, .fail .nothingGiven)
  | .error .help => (false, sayAll helpLines)
  | .error .version => (false, Program.say s!"{programName} {generatorVersion}")

def exitCode : Except RunError Unit → Nat
  | .ok () => 0
  | .error error => error.code

/-- The last lines of the log of a run. -/
def errorLines : Except RunError Unit → List String
  | .ok () => []
  | .error error => error.lines

end WireSchema.CommandLine
