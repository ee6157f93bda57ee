import WireSchema.Wire.Buffer
import WireSchema.Wire.Header

/-!
# Flat records

The embedded form of a message: one cell per field and a single buffer behind them for all texts.
The buffer is sized once from the capacities given at creation; the texts lie in it back to back and
nothing ever moves them. On the wire the scalars come first at their natural width, then each text
behind its 32-bit length.
-/

namespace WireSchema

open Wire

/-- Where a text lies in the buffer, how much of it is in use and how much it may use. -/
structure Region where
  offset : Nat := 0
  length : UInt32 := 0
  capacity : UInt32 := 0
deriving Repr, DecidableEq

/-- What a record holds for a field. -/
inductive Cell where
  | scalar (v : ScalarValue)
  | text (region : Region)
  /-- Owned values have no place in a record. -/
  | absent
deriving Repr, DecidableEq

/-- A message in its embedded form. -/
structure Record where
  descriptor : Descriptor
  header : Header
  /-- One cell per declared field. -/
  cells : List Cell
  buffer : Buffer
deriving Repr, DecidableEq

namespace Record

/-! ## Creation -/

/-- The number of arguments that creation takes. -/
def arity (d : Descriptor) : Nat := d.slots.countP Slot.isCreateArg

/-- The scalar that is given for a slot. -/
def scalarArg (name : String) (type : Scalar) (v : Value) : Except WireError ScalarValue :=
  match v.ofType? type with
  | some s => .ok s
  | none => .error (.wrongKind name (.scalar type))

/-- The capacity that is given for a text. -/
def capacityArg (f : Field) (v : Value) : Except WireError UInt32 :=
  match v.word? with
  | some n => .ok n
  | none => .error (.wrongKind f.capacityName (.scalar .u32))

/-- The cells of fields whose texts start at `offset`, with the end of the last text. The error
`short` is for too few arguments. -/
def layOut (short : WireError) (offset : Nat) :
    List Field → List Value → Except WireError (List Cell × Nat)
  | [], _ => .ok ([], offset)
  | f :: fields, args =>
    match f.kind, args with
    | .scalar type, arg :: args => do
      let v ← scalarArg f.name type arg
      let (cells, size) ← layOut short offset fields args
      return (.scalar v :: cells, size)
    | .text, arg :: args => do
      let capacity ← capacityArg f arg
      let (cells, size) ← layOut short (offset + capacity.toNat) fields args
      return (.text ⟨offset, 0, capacity⟩ :: cells, size)
    | .owned _, args => do
      let (cells, size) ← layOut short offset fields args
      return (.absent :: cells, size)
    | _, [] => .error short

/-- A new record: an argument per scalar and per text, for a text its capacity. -/
def create (d : Descriptor) (header : Header) (args : List Value) : Except WireError Record := do
  let mismatch := WireError.argumentCount d.name (arity d) args.length
  if args.length != arity d then throw mismatch
  let (cells, size) ← layOut mismatch 0 d.fields args
  return ⟨d, header, cells, .zeroed size⟩

/-! ## Texts -/

/-- The region of the text field at index `source`. -/
def region (r : Record) (source : Nat) : Region :=
  match r.cells[source]? with
  | some (.text region) => region
  | _ => {}

/-- The bytes in use of the text field at index `source`. -/
def textAt (r : Record) (source : Nat) : List UInt8 :=
  let region := r.region source
  r.buffer.slice region.offset (min region.length.toNat region.capacity.toNat)

/-- The error for a name that the message does not have. -/
def unknown (r : Record) (name : String) : WireError := .unknownField r.descriptor.name name

/-- The index of the text field called `name`. -/
def textSource (r : Record) (name : String) : Except WireError Nat :=
  match r.descriptor.field? name with
  | some (source, field) => if field.kind = .text then .ok source else .error (r.unknown name)
  | none => .error (r.unknown name)

/-- The bytes of the text field called `name`. -/
def text (r : Record) (name : String) : Except WireError (List UInt8) := do
  return r.textAt (← r.textSource name)

/-- The record with another length of the text at index `source`. -/
def setLength (r : Record) (source : Nat) (length : UInt32) : Record :=
  { r with cells := r.cells.set source (.text { r.region source with length := length }) }

/-- Puts bytes into the text field called `name`. -/
def setText (r : Record) (name : String) (bytes : List UInt8) : Except WireError Record := do
  let source ← r.textSource name
  let region := r.region source
  if region.capacity.toNat < bytes.length then
    throw (.overflow name bytes.length region.capacity.toNat)
  return { r.setLength source (.ofNat bytes.length) with
    buffer := r.buffer.write region.offset bytes }

/-! ## Slots -/

def slot (r : Record) (name : String) : Except WireError Slot :=
  match r.descriptor.slot? name with
  | some s => .ok s
  | none => .error (r.unknown name)

def scalar? (r : Record) (source : Nat) : Option ScalarValue :=
  match r.cells[source]? with
  | some (.scalar v) => some v
  | _ => none

/-- The value of the slot called `name`. -/
def get (r : Record) (name : String) : Except WireError Value := do
  let s ← r.slot name
  match s.role with
  | .value =>
    match r.scalar? s.source with
    | some v => return .scalar v
    | none => throw (r.unknown name)
  | .payload => return .text (r.textAt s.source)
  | .length => return .scalar (.u32 (r.region s.source).length)
  | .capacity => return .scalar (.u32 (r.region s.source).capacity)

def fieldName (r : Record) (source : Nat) : String :=
  match r.descriptor.fields[source]? with
  | some f => f.name
  | none => ""

/-- Sets the slot called `name`. A text takes its bytes and their count, a length may not pass the
capacity, and a capacity cannot be set. -/
def set (r : Record) (name : String) (v : Value) : Except WireError Record := do
  let s ← r.slot name
  match s.role with
  | .value =>
    match s.scalar with
    | some type =>
      let v ← scalarArg s.name type v
      return { r with cells := r.cells.set s.source (.scalar v) }
    | none => throw (.wrongKind s.name .text)
  | .payload =>
    match v with
    | .text bytes => r.setText (r.fieldName s.source) bytes
    | _ => throw (.wrongKind s.name .text)
  | .length =>
    match v.word? with
    | none => throw (.wrongKind s.name (.scalar .u32))
    | some length =>
      let capacity := (r.region s.source).capacity
      if capacity < length then throw (.overflow s.name length.toNat capacity.toNat)
      return r.setLength s.source length
  | .capacity => throw (.fixedAtCreation s.name)

/-! ## Wire form -/

/-- Bytes of the length in front of a text. -/
def countWidth : Nat := 4

/-- The most bytes that the record can take on the wire. -/
def maxSize (r : Record) : Nat :=
  let fixed := r.descriptor.fields.map fun f =>
    match f.kind with
    | .scalar type => type.width
    | _ => 0
  let texts := r.descriptor.textFields.map fun p =>
    countWidth + (r.region p.1).capacity.toNat
  Header.size + fixed.foldr (· + ·) 0 + texts.foldr (· + ·) 0

/-- The bytes of a scalar field. -/
def fixedBytes (r : Record) (source : Nat) : List UInt8 :=
  match r.scalar? source with
  | some v => v.encode
  | none => []

/-- The bytes of a text field behind their count. -/
def countedBytes (r : Record) (source : Nat) : List UInt8 :=
  let bytes := r.textAt source
  bigEndian countWidth bytes.length ++ bytes

/-- The bytes of a record. -/
def encode (r : Record) : Except WireError (List UInt8) :=
  if r.descriptor.internal then .error (.notSerializable r.descriptor.name)
  else
    .ok (r.header.encode ++
      r.descriptor.fixedFields.flatMap (fun p => r.fixedBytes p.1) ++
      r.descriptor.textFields.flatMap (fun p => r.countedBytes p.1))

/-- Writes a record to the start of a block of memory: the number of bytes written, or why none
were, and the block afterwards. -/
def encodeInto (r : Record) (block : List UInt8) : Except WireError Nat × List UInt8 :=
  match r.encode with
  | .error e => (.error e, block)
  | .ok bytes =>
    if block.length < bytes.length then (.error (.truncated bytes.length block.length), block)
    else (.ok bytes.length, bytes ++ block.drop bytes.length)

def readFixed : List Field → Reader (List ScalarValue)
  | [] => return []
  | f :: fields =>
    match f.kind with
    | .scalar type => do
      let v ← Reader.scalar type
      return v :: (← readFixed fields)
    | _ => readFixed fields

def readTexts : List Field → Reader (List (List UInt8))
  | [] => return []
  | f :: fields =>
    match f.kind with
    | .text => do
      let bytes ← Reader.counted
      return bytes :: (← readTexts fields)
    | _ => readTexts fields

/-- The cells of fields from what was read for them. Each text fills its region. -/
def cellsOf (offset : Nat) : List Field → List ScalarValue → List (List UInt8) → List Cell
  | [], _, _ => []
  | f :: fields, values, texts =>
    match f.kind, values, texts with
    | .scalar _, v :: values, texts => .scalar v :: cellsOf offset fields values texts
    | .text, values, text :: texts =>
      let length := UInt32.ofNat text.length
      .text ⟨offset, length, length⟩ :: cellsOf (offset + text.length) fields values texts
    | _, values, texts => .absent :: cellsOf offset fields values texts

def read (d : Descriptor) (typeId : UInt32) : Reader Record := do
  let header ← d.readHeader typeId
  let values ← readFixed d.fields
  let texts ← readTexts d.fields
  return ⟨d, header, cellsOf 0 d.fields values texts, .ofBytes texts.flatten⟩

/-- The record of a known type that bytes start with. -/
def decode (d : Descriptor) (typeId : UInt32) (bytes : List UInt8) : Except WireError Record :=
  (read d typeId).parse bytes

/-! ## Equality -/

/-- Whether both records hold equal scalars at index `source`. -/
def scalarsEqual (r s : Record) (source : Nat) : Bool :=
  match r.scalar? source, s.scalar? source with
  | some a, some b => a.equals b
  | none, none => true
  | _, _ => false

/-- Whether two records are the same message. Capacities and unused bytes do not count. -/
def equals (r s : Record) : Bool :=
  r.descriptor.name == s.descriptor.name && r.header == s.header &&
    r.descriptor.fixedFields.all (fun p => r.scalarsEqual s p.1) &&
    r.descriptor.textFields.all (fun p => r.textAt p.1 == s.textAt p.1)

end Record

end WireSchema
