import WireSchema.Schema.Declaration

/-!
# Descriptors from declarations

A declaration becomes a descriptor when its names are identifiers, its types are known, and its
fields fit the representations that its interface is emitted for.
-/

namespace WireSchema

/-! ## Types -/

/-- The type that is carried as text. -/
def textType : String := "std::string"

/-- How the type of an owned field starts. -/
def ownedOpening : String := "std::unique_ptr<"

/-- What stands between `std::unique_ptr<` and a closing `>`. -/
def ownedInner? (typeName : List Char) : Option (List Char) :=
  if ownedOpening.toList.isPrefixOf typeName then
    let rest := typeName.drop ownedOpening.length
    if rest.getLast? = some '>' then some rest.dropLast else none
  else none

/-- Whether the text is identifiers joined by `::`. -/
def isTypePath (cs : List Char) : Bool := (Text.splitPair ':' ':' cs).all Naming.isIdentifierChars

/-- What an owned field points to. -/
def OwnedCore.of? (config : Config) (inner : List Char) : Option OwnedCore :=
  let name := String.ofList inner
  if name == textType then some .text
  else
    match config.scalar? name with
    | some type => some (.scalar type)
    | none => if isTypePath inner then some (.foreign name) else none

/-- What a field of the written type holds. -/
def FieldKind.of? (config : Config) (typeName : String) : Option FieldKind :=
  if typeName == textType then some .text
  else
    match ownedInner? typeName.toList with
    | some inner => (OwnedCore.of? config inner).map .owned
    | none => (config.scalar? typeName).map .scalar

def Field.build (config : Config) (typeName name : String) : Except LineFault Field :=
  if !Naming.isIdentifier name then .error (.badFieldName name)
  else
    match FieldKind.of? config typeName with
    | some kind => .ok ⟨name, typeName, kind⟩
    | none => .error (.unknownType typeName name)

/-! ## Consistency -/

/-- The first name that occurs for the second time. -/
def firstRepeat (seen : List String) : List String → Option String
  | [] => none
  | name :: rest => if seen.contains name then some name else firstRepeat (seen ++ [name]) rest

namespace Descriptor

/-- The members that must differ: those of the fields and, in a record, those of the counters. -/
def members (d : Descriptor) : List String :=
  d.fields.map Field.member ++
    (d.slots.filter fun s => d.targets.embedded && s.isCounter).map Slot.member

/-- The first field that a stream could not read because another follows it. -/
def delimitedNotLast? (d : Descriptor) : Option Field :=
  d.fields.dropLast.find? (·.kind.streamDelimited)

/-- The first reason why the fields do not fit the targets. -/
def error? (d : Descriptor) : Option SchemaError :=
  match firstRepeat [] d.members with
  | some name => some (.duplicateName d.location .field name d.location)
  | none =>
    match if d.targets.embedded then d.fields.find? (·.kind.isOwned) else none with
    | some f => some (.malformed d.location (.ownedOnEmbedded f.name f.typeName d.interface))
    | none =>
      match if d.targets.host then d.delimitedNotLast? else none with
      | some f => some (.malformed d.location (.delimitedNotLast f.name))
      | none => none

def ofDeclaration (config : Config) (interface : Interface) (location : Location)
    (declaration : Declaration) : Except SchemaError Descriptor := do
  if !Naming.isIdentifier declaration.name then
    throw (.malformed location (.badMessageName declaration.name))
  let fields ← declaration.members.mapM fun m =>
    (Field.build config m.1 m.2).mapError (.malformed location ·)
  let d : Descriptor :=
    { name := declaration.name
      interface := interface.name
      targets := interface.targets
      fields := fields
      includes := declaration.includes
      internal := declaration.internal
      location := location }
  match d.error? with
  | some error => throw error
  | none => pure d

/-- Reads a declaration in `interface` and builds its descriptor. -/
def build (config : Config) (interface : Interface) (location : Location) (text : String) :
    Except SchemaError Descriptor := do
  ofDeclaration config interface location (← Declaration.parse location text)

end Descriptor

/-- The targets that the name of an interface selects. -/
def Targets.ofName (infixes : Infixes) (name : String) : Targets :=
  ⟨Text.contains name infixes.host, Text.contains name infixes.embedded⟩

end WireSchema
