import WireSchema.Descriptor

/-!
# Errors of the codecs
-/

namespace WireSchema

/-- Why an operation on a message was refused. -/
inductive WireError where
  /-- An internal message has no wire form. -/
  | notSerializable (message : String)
  | truncated (needed remaining : Nat)
  /-- A text does not fit into the buffer that was set aside for it. -/
  | overflow (field : String) (length capacity : Nat)
  | unknownType (typeId : UInt32)
  | typeMismatch (expected found : UInt32)
  | unknownField (message field : String)
  | wrongKind (field : String) (expected : FieldKind)
  /-- The capacity of a text never changes. -/
  | fixedAtCreation (field : String)
  | argumentCount (message : String) (expected found : Nat)
deriving Repr, DecidableEq

namespace WireError

/-- The wording of an error. -/
def message : WireError → String
  | notSerializable name => s!"message '{name}' is internal and cannot be serialized"
  | truncated needed remaining =>
    s!"input truncated: needed {needed} bytes, {remaining} remaining"
  | overflow field length capacity =>
    s!"field '{field}' holds {length} bytes but its buffer capacity is {capacity}"
  | unknownType typeId => s!"unknown message type id {typeId.toNat}"
  | typeMismatch expected found =>
    s!"type id mismatch: expected {expected.toNat}, found {found.toNat}"
  | unknownField name field => s!"message '{name}' has no field '{field}'"
  | wrongKind field expected => s!"field '{field}' expects a {expected.word} value"
  | fixedAtCreation field => s!"field '{field}' is fixed at creation"
  | argumentCount name expected found =>
    s!"message '{name}' takes {expected} arguments, got {found}"

/-- The number of an error. -/
def code : WireError → Nat
  | notSerializable _ => 1
  | truncated .. => 2
  | overflow .. => 3
  | unknownType _ => 4
  | typeMismatch .. => 5
  | unknownField .. => 6
  | wrongKind .. => 7
  | fixedAtCreation _ => 8
  | argumentCount .. => 9

end WireError

end WireSchema
