import WireSchema.Config
import WireSchema.Descriptor
import WireSchema.Schema.OptionFault

/-!
# Errors of schema compilation

Every error is fatal: one bad line spoils the schema, so that the two trees never drift apart. An
error says what was wrong; its wording and its exit code are functions of that.
-/

namespace WireSchema

/-- What a name that is declared twice names. -/
inductive NameKind where
  | message | field | interface | address | domain
deriving Repr, DecidableEq

def NameKind.word : NameKind → String
  | .message => "message"
  | .field => "field"
  | .interface => "interface"
  | .address => "address"
  | .domain => "domain"

/-- A half of an address. -/
inductive AddressPart where
  | region | index
deriving Repr, DecidableEq

def AddressPart.word : AddressPart → String
  | .region => "region"
  | .index => "index"

/-- Why a line of a schema is malformed. -/
inductive LineFault where
  | textAfterClose (rest : String)
  | textAfterName (extra name : String)
  | options (fault : OptionFault)
  | badMessageName (name : String)
  | badFieldName (name : String)
  | unknownType (typeName field : String)
  | ownedOnEmbedded (field typeName interface : String)
  | delimitedNotLast (field : String)
  | reservedName (name : String)
  | unknownInterface (name : String)
  | closeWithoutInterface
  | declarationOutside
  | closeWithoutRegion
  | addressOutside (name : String)
  | badAddressName (name : String)
deriving Repr, DecidableEq

/-- The wording of a fault. -/
def LineFault.message : LineFault → String
  | .textAfterClose rest => s!"close marker followed by unexpected text '{rest}'"
  | .textAfterName extra name => s!"unexpected token '{extra}' after name '{name}'"
  | .options fault => fault.message
  | .badMessageName name => s!"message name '{name}' is not a valid identifier"
  | .badFieldName name => s!"field name '{name}' is not a valid identifier"
  | .unknownType typeName field => s!"unknown type '{typeName}' for field '{field}'"
  | .ownedOnEmbedded field typeName interface =>
    s!"field '{field}' of type '{typeName}' cannot be carried by embedded interface '{interface}'"
  | .delimitedNotLast field =>
    s!"field '{field}' is read to the end of the host stream and must be declared last"
  | .reservedName name => s!"'{name}' is a reserved message name"
  | .unknownInterface name => s!"unknown interface '{name}'"
  | .closeWithoutInterface => "close marker without an open interface"
  | .declarationOutside => "declaration before any interface is open"
  | .closeWithoutRegion => "close marker without an open region"
  | .addressOutside name => s!"address '{name}' declared outside any region"
  | .badAddressName name => s!"address name '{name}' is not a single identifier"

/-- Why a schema does not compile. -/
inductive SchemaError where
  | malformed (location : Location) (fault : LineFault)
  | duplicateName (location : Location) (kind : NameKind) (name : String) (first : Location)
  | addressOverflow (location : Location) (part : AddressPart) (value : Nat)
  /-- A message on the wire has no entry in the dispatch table, or several. -/
  | dispatch (representation : Representation) (name : String) (typeId entries : Nat)
  | unreadable (path : String) (cause : Disk.OsError)
  | config (error : ConfigError)
deriving Repr, DecidableEq

namespace SchemaError

/-- The wording of an error. -/
def message : SchemaError → String
  | .malformed location fault => s!"{location.text}: syntax error: {fault.message}"
  | .duplicateName location kind name first =>
    s!"{location.text}: duplicate {kind.word} name '{name}' (first declared at {first.text})"
  | .addressOverflow location part value =>
    s!"{location.text}: address overflow: {part.word} {value} does not fit in 8 bits"
  | .dispatch representation name typeId entries =>
    s!"dispatch table for {representation.name} has {entries} entries for message '{name}' " ++
      s!"(id {typeId}), expected exactly one"
  | .unreadable path cause => s!"I/O error on {path}: {cause.message}"
  | .config error => error.message

def code : SchemaError → Nat
  | .malformed .. => 2
  | .duplicateName .. => 3
  | .addressOverflow .. => 4
  | .dispatch .. => 5
  | .unreadable .. => 6
  | .config _ => 7

/-- The line that an error points at. -/
def location? : SchemaError → Option Location
  | .malformed location _ => some location
  | .duplicateName location .. => some location
  | .addressOverflow location .. => some location
  | _ => none

end SchemaError

end WireSchema
