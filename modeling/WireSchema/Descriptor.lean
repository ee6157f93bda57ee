import WireSchema.Location
import WireSchema.Naming
import WireSchema.Scalar

/-!
# Message descriptors

A descriptor says what a message carries: its fields in declaration order, the interface it belongs
to and the representations it is emitted for. The slots of the flat record that the embedded side
uses follow from the fields: one for a scalar, three for a text, none for an owned value.
-/

namespace WireSchema

/-! ## Targets -/

/-- One of the two emitted representations. -/
inductive Representation where
  /-- Ground side: owned values, stream encoding. -/
  | host
  /-- Firmware side: flat records, length-prefixed encoding. -/
  | embedded
deriving Repr, DecidableEq, Inhabited

/-- The word for a representation. -/
def Representation.name : Representation → String
  | .host => "host"
  | .embedded => "embedded"

/-- The representations that an interface is emitted for. -/
structure Targets where
  host : Bool
  embedded : Bool
deriving Repr, DecidableEq, Inhabited

/-- Whether `r` is among the targets. -/
def Targets.includes (t : Targets) : Representation → Bool
  | .host => t.host
  | .embedded => t.embedded

/-! ## Fields -/

/-- What an owned field points to. -/
inductive OwnedCore where
  | scalar (type : Scalar)
  | text
  /-- A host type that is streamed by its own operators. -/
  | foreign (path : String)
deriving Repr, DecidableEq

/-- What a field holds. -/
inductive FieldKind where
  | scalar (type : Scalar)
  | text
  | owned (core : OwnedCore)
deriving Repr, DecidableEq

namespace FieldKind

/-- Whether the host stream holds this kind up to the end of the message. -/
def streamDelimited : FieldKind → Bool
  | .scalar _ => false
  | .text => true
  | .owned (.scalar _) => false
  | .owned _ => true

/-- The word for a kind in messages to the user. -/
def word : FieldKind → String
  | .scalar type => type.cName
  | .text => "text"
  | .owned _ => "owned"

/-- Whether the field is a scalar held by value. -/
def isScalar : FieldKind → Bool
  | .scalar _ => true
  | _ => false

/-- Whether the field is owned through a pointer. -/
def isOwned : FieldKind → Bool
  | .owned _ => true
  | _ => false

end FieldKind

/-- A declared field. -/
structure Field where
  name : String
  /-- The type as it was written. -/
  typeName : String
  kind : FieldKind
deriving Repr, DecidableEq

/-- The member that holds the field in generated code. -/
def Field.member (f : Field) : String := Naming.memberName f.name

def Field.accessor (f : Field) : String := Naming.accessorStem f.name

/-! ## Slots -/

/-- The part that a slot plays for its field. -/
inductive SlotRole where
  /-- A scalar held in the record. -/
  | value
  /-- Where a text starts in the buffer behind the record. -/
  | payload
  /-- How many bytes of the text are in use. -/
  | length
  /-- How many bytes the buffer has for the text. -/
  | capacity
deriving Repr, DecidableEq

/-- One slot of the flat record. -/
structure Slot where
  role : SlotRole
  /-- Index of the declared field. -/
  source : Nat
  name : String
  /-- The scalar type of values and counters. -/
  scalar : Option Scalar
deriving Repr, DecidableEq

namespace Slot

def member (s : Slot) : String := Naming.memberName s.name

def accessor (s : Slot) : String := Naming.accessorStem s.name

/-- The C type of the slot: that of its scalar, or a byte pointer. -/
def cType (s : Slot) : String :=
  match s.scalar with
  | some type => type.cName
  | none => "uint8_t*"

/-- Whether the record constructor takes the slot as an argument. -/
def isCreateArg (s : Slot) : Bool :=
  match s.role with
  | .value | .capacity => true
  | .payload | .length => false

/-- Whether the slot counts bytes of a text. -/
def isCounter (s : Slot) : Bool :=
  match s.role with
  | .length | .capacity => true
  | .value | .payload => false

end Slot

/-- The name of the slot that counts the bytes of a text in use. -/
def Field.lengthName (f : Field) : String := Naming.titleCase f.name ++ "length"

/-- The name of the slot that counts the bytes a text may use. -/
def Field.capacityName (f : Field) : String := Naming.titleCase f.name ++ "bufferlength"

def Field.slots (source : Nat) (f : Field) : List Slot :=
  match f.kind with
  | .scalar type => [⟨.value, source, f.name, some type⟩]
  | .text =>
    [⟨.payload, source, f.name, none⟩,
     ⟨.length, source, f.lengthName, some .u32⟩,
     ⟨.capacity, source, f.capacityName, some .u32⟩]
  | .owned _ => []

/-- The slots of fields numbered from `start`. -/
def Field.slotsFrom (start : Nat) : List Field → List Slot
  | [] => []
  | f :: fs => f.slots start ++ slotsFrom (start + 1) fs

/-! ## Descriptors -/

/-- A declared message. -/
structure Descriptor where
  name : String
  interface : String
  targets : Targets
  fields : List Field
  includes : List String
  /-- An internal message lives in memory only and has no wire form. -/
  internal : Bool
  location : Location
deriving Repr, DecidableEq

namespace Descriptor

/-- The slots of the flat record, in declaration order. -/
def slots (d : Descriptor) : List Slot := Field.slotsFrom 0 d.fields

/-- Whether the message has a wire form in `r`. -/
def isWire (d : Descriptor) (r : Representation) : Bool := d.targets.includes r && !d.internal

/-- The fields with their indices. -/
def indexed (d : Descriptor) : List (Nat × Field) := d.fields.zipIdx.map fun p => (p.2, p.1)

/-- The first field called `name`, with its index. -/
def field? (d : Descriptor) (name : String) : Option (Nat × Field) :=
  d.indexed.find? (·.2.name == name)

/-- The scalar fields, which a record writes first. -/
def fixedFields (d : Descriptor) : List (Nat × Field) := d.indexed.filter (·.2.kind.isScalar)

def textFields (d : Descriptor) : List (Nat × Field) := d.indexed.filter (·.2.kind == .text)

def hasOwned (d : Descriptor) : Bool := d.fields.any (·.kind.isOwned)

/-- The first slot called `name`. -/
def slot? (d : Descriptor) (name : String) : Option Slot := d.slots.find? (·.name == name)

/-- The slots of the field at index `source`. -/
def slotsFor (d : Descriptor) (source : Nat) : List Slot := d.slots.filter (·.source == source)

/-- The slot of the field at index `source` that plays a role. -/
def slotOf? (d : Descriptor) (source : Nat) (role : SlotRole) : Option Slot :=
  (d.slotsFor source).find? (·.role == role)

end Descriptor

/-! ## Interfaces -/

/-- A named group of messages with common targets. -/
structure Interface where
  name : String
  targets : Targets
  location : Location
  /-- Names of the messages declared in it. -/
  messages : List String
deriving Repr, DecidableEq

/-- An interface without messages. -/
def Interface.empty (name : String) (targets : Targets) (location : Location) : Interface :=
  ⟨name, targets, location, []⟩

end WireSchema
