import WireSchema.Wire.Error
import WireSchema.Wire.Value

/-!
# Reading bytes

An input is a byte string with a position in it. A read that asks for more bytes than there are
fails, says how many were missing and moves nothing; a compound read that fails keeps what its
earlier parts have consumed.
-/

namespace WireSchema

open Wire

/-- What is left of a byte string, and how much of it was read. -/
structure Input where
  position : Nat
  rest : List UInt8
deriving Repr, DecidableEq

/-- An input at the start of a byte string. -/
def Input.ofBytes (bytes : List UInt8) : Input := ⟨0, bytes⟩

/-- The number of bytes left. -/
def Input.remaining (i : Input) : Nat := i.rest.length

/-- The input behind the next `n` bytes. -/
def Input.skip (i : Input) (n : Nat) : Input := ⟨i.position + n, i.rest.drop n⟩

/-- A computation that reads an input. -/
abbrev Reader := EStateM WireError Input

namespace Reader

/-- The next `n` bytes. -/
def take (n : Nat) : Reader (List UInt8) := fun i =>
  if i.remaining < n then .error (.truncated n i.remaining) i
  else .ok (i.rest.take n) (i.skip n)

/-- All bytes that are left. -/
def takeRest : Reader (List UInt8) := fun i => .ok i.rest (i.skip i.remaining)

def scalar (type : Scalar) : Reader ScalarValue := do
  return .decode type (← take type.width)

/-- An unsigned byte. -/
def u8 : Reader UInt8 := do return .ofNat (ofBigEndian (← take 1))

/-- An unsigned 32-bit word. -/
def u32 : Reader UInt32 := do return .ofNat (ofBigEndian (← take 4))

/-- A text behind its 32-bit length. -/
def counted : Reader (List UInt8) := do
  let length ← u32
  take length.toNat

/-- The result of reading from the start of a byte string. -/
def parse {α : Type} (r : Reader α) (bytes : List UInt8) : Except WireError α :=
  match r (Input.ofBytes bytes) with
  | .ok a _ => .ok a
  | .error e _ => .error e

end Reader

end WireSchema
