import WireSchema.Wire.Header

/-!
# Host messages

The host form of a message: a value per field. On the wire the values follow each other in
declaration order without lengths; a text or a foreign object is read up to the end of the bytes,
which is why a schema allows only one and only as the last field.
-/

namespace WireSchema

/-- A message in its host form. -/
structure Message where
  descriptor : Descriptor
  header : Header
  /-- One value per declared field. -/
  values : List Value
deriving Repr, DecidableEq

namespace Message

/-! ## Creation -/

/-- Whether a field can hold a value. `name` is the name to report. -/
def checkKind (name : String) (kind : FieldKind) (v : Value) : Except WireError Unit :=
  if v.fits kind then .ok () else .error (.wrongKind name kind)

/-- Whether fields can hold values, first field first. -/
def checkAll : List Field → List Value → Except WireError Unit
  | f :: fields, v :: values => do
    checkKind f.name f.kind v
    checkAll fields values
  | _, _ => .ok ()

/-- A message with the given values. -/
def create (d : Descriptor) (header : Header) (values : List Value) :
    Except WireError Message := do
  if values.length != d.fields.length then
    throw (.argumentCount d.name d.fields.length values.length)
  checkAll d.fields values
  return ⟨d, header, values⟩

def initial (d : Descriptor) (header : Header) : Message :=
  ⟨d, header, d.fields.map fun f => .initial f.kind⟩

/-! ## Fields -/

/-- The first field called `name`, with its index. -/
def field (m : Message) (name : String) : Except WireError (Nat × Field) :=
  match m.descriptor.field? name with
  | some found => .ok found
  | none => .error (.unknownField m.descriptor.name name)

/-- The value of the field called `name`. -/
def get (m : Message) (name : String) : Except WireError Value := do
  let (source, _) ← m.field name
  match m.values[source]? with
  | some v => return v
  | none => throw (.unknownField m.descriptor.name name)

/-- Sets the field called `name`. -/
def set (m : Message) (name : String) (v : Value) : Except WireError Message := do
  let (source, f) ← m.field name
  checkKind name f.kind v
  return { m with values := m.values.set source v }

/-! ## Wire form -/

/-- The bytes of a message. -/
def encode (m : Message) : Except WireError (List UInt8) :=
  if m.descriptor.internal then .error (.notSerializable m.descriptor.name)
  else .ok (m.header.encode ++ m.values.flatMap Value.streamed)

def readValue : FieldKind → Reader Value
  | .scalar type => return .scalar (← Reader.scalar type)
  | .text => return .text (← Reader.takeRest)
  | .owned (.scalar type) => return .owned (.scalar (← Reader.scalar type))
  | .owned .text => return .owned (.text (← Reader.takeRest))
  | .owned (.foreign _) => return .foreign (← Reader.takeRest)

def readValues : List Field → Reader (List Value)
  | [] => return []
  | f :: fields => do
    let v ← readValue f.kind
    return v :: (← readValues fields)

def read (d : Descriptor) (typeId : UInt32) : Reader Message := do
  let header ← d.readHeader typeId
  return ⟨d, header, ← readValues d.fields⟩

/-- The message of a known type that bytes hold. -/
def decode (d : Descriptor) (typeId : UInt32) (bytes : List UInt8) : Except WireError Message :=
  (read d typeId).parse bytes

/-! ## Equality -/

def valuesEqual : List Value → List Value → Bool
  | [], [] => true
  | a :: as, b :: bs => a.equals b && valuesEqual as bs
  | _, _ => false

/-- Whether two messages are the same. -/
def equals (m n : Message) : Bool :=
  m.descriptor.name == n.descriptor.name && m.header == n.header && valuesEqual m.values n.values

end Message

end WireSchema
