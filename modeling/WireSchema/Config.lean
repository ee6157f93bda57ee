import WireSchema.Disk.OsError
import WireSchema.Naming
import WireSchema.Scalar
import WireSchema.StringMap
import WireSchema.Text.Numeric
import WireSchema.Text.Space
import WireSchema.Toml.Document

/-!
# Compiler configuration

The choices that a configuration document may make: the characters that mark lines of a schema, the
infixes that give interfaces their targets, the names used in generated code, and further names for
scalar types. Everything has a default, and unknown keys are ignored.
-/

namespace WireSchema

/-! ## Settings -/

/-- The characters that schema lines start with. -/
structure Markers where
  marker : Char := '*'
  comment : Char := '#'
deriving Repr, DecidableEq

/-- Parts of an interface name that select its targets. -/
structure Infixes where
  host : String := "GS_"
  embedded : String := "FC_"
deriving Repr, DecidableEq

/-- Names and hand-written files of the generated trees. -/
structure OutputNames where
  /-- C++ namespace of every host class. -/
  spaceName : String := "QuadGS"
  /-- The enumeration of message types, and its header. -/
  typeEnum : String := "messageTypes"
  /-- The enumeration of addresses, and its header. -/
  addressEnum : String := "msgAddr"
  /-- A comment for the top of every generated file. -/
  banner : Option String := none
  /-- Path of a header with enumerations for both trees. -/
  sharedEnums : Option String := none
  /-- Path of a header with type definitions for both trees. -/
  commonTypes : Option String := none
  /-- Path of a file with host stream operators for the common types. -/
  commonTypesStream : Option String := none
deriving Repr, DecidableEq

/-- A whole configuration. -/
structure Config where
  markers : Markers := {}
  infixes : Infixes := {}
  output : OutputNames := {}
  /-- Further names of scalar types, each for a C name. -/
  aliases : StringMap String := .empty
deriving Repr, DecidableEq

/-! ## Faults -/

/-- Why a configuration is not valid. -/
inductive ConfigFault where
  | emptyInfix
  | equalInfixes (infixText : String)
  | identifierChar (role : String) (c : Char)
  | equalMarkers
  | unknownAlias (key target : String)
  | streamWithoutTypes
  | notIdentifier (setting value : String)
deriving Repr, DecidableEq

/-- The wording of a fault. -/
def ConfigFault.message : ConfigFault → String
  | .emptyInfix => "target infixes must not be empty"
  | .equalInfixes infixText => s!"host and embedded infix are both '{infixText}'"
  | .identifierChar role c => s!"{role} character '{c}' could start an identifier"
  | .equalMarkers => "marker and comment characters must differ"
  | .unknownAlias key target => s!"alias '{key}' targets unknown scalar type '{target}'"
  | .streamWithoutTypes => "output.common_types_stream requires output.common_types"
  | .notIdentifier setting value => s!"output.{setting} '{value}' is not a valid identifier"

/-- Why no configuration could be had. -/
inductive ConfigError where
  | unreadable (path : String) (cause : Disk.OsError)
  /-- The text is no document, or a value has the wrong type. -/
  | malformed
  | invalid (fault : ConfigFault)
deriving Repr, DecidableEq

/-- The wording of an error. -/
def ConfigError.message : ConfigError → String
  | .unreadable path cause => s!"failed to read configuration {path}: {cause.message}"
  | .malformed => "failed to parse configuration"
  | .invalid fault => s!"invalid configuration: {fault.message}"

namespace Config

/-! ## Reading settings from a document -/

/-- A setting with a default: `read` is asked only where the document has a value. -/
def orDefault {α : Type} (read : Toml.Value → Option α) (fallback : α) :
    Option Toml.Value → Option α
  | none => some fallback
  | some v => read v

def readText : Toml.Value → Option String
  | .text s => some s
  | _ => none

/-- A string of one character. -/
def readChar : Toml.Value → Option Char
  | .text s =>
    match s.toList with
    | [c] => some c
    | _ => none
  | _ => none

/-- A string for a setting that may be left out. -/
def readSome (v : Toml.Value) : Option (Option String) := (readText v).map some

/-- The values of a group of settings: by name from a table, or by position from an array. What
stands in a table under another name must still be a value that can be kept; what stands in an array
behind the last setting is not looked at. -/
def members (names : List String) : Toml.Value → Option (List (Option Toml.Value))
  | .array _ items => some (names.zipIdx.map fun p => items[p.2]?)
  | v => do
    let entries ← v.entries?
    if Toml.entriesFit entries then some (names.map fun name => entries.lookup name) else none

/-- The marking characters. -/
def readMarkers (v : Toml.Value) : Option Markers := do
  match ← members ["marker", "comment"] v with
  | [marker, comment] =>
    some ⟨← orDefault readChar '*' marker, ← orDefault readChar '#' comment⟩
  | _ => none

/-- The target infixes. -/
def readInfixes (v : Toml.Value) : Option Infixes := do
  match ← members ["host_infix", "embedded_infix"] v with
  | [host, embedded] =>
    some ⟨← orDefault readText "GS_" host, ← orDefault readText "FC_" embedded⟩
  | _ => none

def readOutput (v : Toml.Value) : Option OutputNames := do
  match ← members ["namespace", "type_enum", "address_enum", "banner", "shared_enums",
      "common_types", "common_types_stream"] v with
  | [spaceName, typeEnum, addressEnum, banner, sharedEnums, commonTypes, commonTypesStream] =>
    some {
      spaceName := ← orDefault readText "QuadGS" spaceName
      typeEnum := ← orDefault readText "messageTypes" typeEnum
      addressEnum := ← orDefault readText "msgAddr" addressEnum
      banner := ← orDefault readSome none banner
      sharedEnums := ← orDefault readSome none sharedEnums
      commonTypes := ← orDefault readSome none commonTypes
      commonTypesStream := ← orDefault readSome none commonTypesStream }
  | _ => none

/-- A table of strings. -/
def readAliases (v : Toml.Value) : Option (StringMap String) := do
  let pairs ← (← v.entries?).mapM fun e => (readText e.2).map (e.1, ·)
  some (StringMap.ofList pairs)

/-- The entries of a document that hold settings. -/
def groupNames : List String := ["syntax", "targets", "output", "aliases"]

def ofEntries (entries : Toml.Entries) : Option Config := do
  if !Toml.entriesFit (entries.filter fun e => !groupNames.contains e.1) then none
  some {
    markers := ← orDefault readMarkers {} (entries.lookup "syntax")
    infixes := ← orDefault readInfixes {} (entries.lookup "targets")
    output := ← orDefault readOutput {} (entries.lookup "output")
    aliases := ← orDefault readAliases .empty (entries.lookup "aliases") }

/-! ## Validation -/

/-- Whether a character may stand in a name or between names, and so cannot mark a line. -/
def couldStartName (c : Char) : Bool :=
  Text.isAlphabetic c || Text.isNumeric c || Text.isSpace c || c == '_'

def fault? (config : Config) : Option ConfigFault :=
  let infixes := config.infixes
  let markers := config.markers
  let output := config.output
  if infixes.host.isEmpty || infixes.embedded.isEmpty then some .emptyInfix
  else if infixes.host == infixes.embedded then some (.equalInfixes infixes.host)
  else if couldStartName markers.marker then some (.identifierChar "marker" markers.marker)
  else if couldStartName markers.comment then some (.identifierChar "comment" markers.comment)
  else if markers.marker == markers.comment then some .equalMarkers
  else
    match config.aliases.entries.find? fun e => (Scalar.ofCName? e.2).isNone with
    | some e => some (.unknownAlias e.1 e.2)
    | none =>
      if output.commonTypesStream.isSome && output.commonTypes.isNone then
        some .streamWithoutTypes
      else
        let names := [("namespace", output.spaceName), ("type_enum", output.typeEnum),
          ("address_enum", output.addressEnum)]
        (names.find? fun n => !Naming.isIdentifier n.2).map fun n => .notIdentifier n.1 n.2

/-- Reads a configuration document. An empty one gives the defaults. -/
def parse (document : String) : Except ConfigError Config :=
  match (Toml.parse? document).bind ofEntries with
  | none => .error .malformed
  | some config =>
    match config.fault? with
    | some fault => .error (.invalid fault)
    | none => .ok config

/-! ## Use -/

/-- The scalar type that a name stands for: a C name, or an alias of one. -/
def scalar? (config : Config) (name : String) : Option Scalar :=
  match Scalar.ofCName? name with
  | some type => some type
  | none => (config.aliases.get? name).bind Scalar.ofCName?

end Config

end WireSchema
