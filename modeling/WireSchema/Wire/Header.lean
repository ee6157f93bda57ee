import WireSchema.Wire.Input

/-!
# The message header

Thirteen bytes that open every message on the wire: type id, destination and source address as
32-bit words, then a running number in one byte.
-/

namespace WireSchema

open Wire

/-- The common head of all messages. -/
structure Header where
  typeId : UInt32 := 0
  destination : UInt32 := 0
  source : UInt32 := 0
  number : UInt8 := 0
deriving Repr, DecidableEq

namespace Header

/-- Bytes of a header. -/
def size : Nat := 13

/-- The bytes of a header. -/
def encode (h : Header) : List UInt8 :=
  bigEndian 4 h.typeId.toNat ++ bigEndian 4 h.destination.toNat ++ bigEndian 4 h.source.toNat ++
    bigEndian 1 h.number.toNat

def read : Reader Header := do
  let typeId ← Reader.u32
  let destination ← Reader.u32
  let source ← Reader.u32
  let number ← Reader.u8
  return ⟨typeId, destination, source, number⟩

/-- The type id at the start of a byte string. -/
def peekType (bytes : List UInt8) : Except WireError UInt32 := Reader.u32.parse bytes

@[simp] theorem length_encode (h : Header) : h.encode.length = size := by
  simp [encode, size]

end Header

/-- Reads the header of a message of a known type. -/
def Descriptor.readHeader (d : Descriptor) (typeId : UInt32) : Reader Header := do
  if d.internal then throw (.notSerializable d.name)
  let header ← Header.read
  if header.typeId != typeId then throw (.typeMismatch typeId header.typeId)
  return header

end WireSchema
