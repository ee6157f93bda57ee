import WireSchema.Registry
import WireSchema.Wire.Message
import WireSchema.Wire.Record

/-!
# Messages of unknown type

A parser knows the messages of one representation by their type ids and picks the decoder by the
id that the bytes start with.
-/

namespace WireSchema

/-- The messages of a representation that bytes can hold, with their type ids. -/
structure Parser where
  entries : List (Nat × Descriptor)
deriving Repr, DecidableEq

namespace Parser

/-- The type id of bytes and its message. -/
def find (p : Parser) (bytes : List UInt8) : Except WireError (UInt32 × Descriptor) := do
  let typeId ← Header.peekType bytes
  match p.entries.find? (·.1 == typeId.toNat) with
  | some (_, d) => return (typeId, d)
  | none => throw (.unknownType typeId)

/-- The record that bytes hold. -/
def record (p : Parser) (bytes : List UInt8) : Except WireError Record := do
  let (typeId, d) ← p.find bytes
  Record.decode d typeId bytes

/-- The host message that bytes hold. -/
def message (p : Parser) (bytes : List UInt8) : Except WireError Message := do
  let (typeId, d) ← p.find bytes
  Message.decode d typeId bytes

end Parser

end WireSchema
