import WireSchema.Descriptor
import WireSchema.Wire.BigEndian

/-!
# Values of fields

A scalar value is a number of one of the eleven scalar types; floats are kept as their bit patterns.
On the wire a scalar is the big-endian form of its code, a natural number below `256 ^ width`. Texts
and foreign objects are byte strings, and an owned value is another value behind a pointer.
-/

namespace WireSchema

open Wire

/-! ## Scalars -/

inductive ScalarValue where
  | u8 (v : UInt8)
  | u16 (v : UInt16)
  | u32 (v : UInt32)
  | u64 (v : UInt64)
  | i8 (v : Int8)
  | i16 (v : Int16)
  | i32 (v : Int32)
  | i64 (v : Int64)
  | f32 (bits : UInt32)
  | f64 (bits : UInt64)
  | bool (v : Bool)
deriving Repr, DecidableEq

namespace ScalarValue

def type : ScalarValue → Scalar
  | u8 _ => .u8
  | u16 _ => .u16
  | u32 _ => .u32
  | u64 _ => .u64
  | i8 _ => .i8
  | i16 _ => .i16
  | i32 _ => .i32
  | i64 _ => .i64
  | f32 _ => .f32
  | f64 _ => .f64
  | bool _ => .bool

/-- The number that stands for a value on the wire. -/
def code : ScalarValue → Nat
  | u8 v => v.toNat
  | u16 v => v.toNat
  | u32 v => v.toNat
  | u64 v => v.toNat
  | i8 v => v.toUInt8.toNat
  | i16 v => v.toUInt16.toNat
  | i32 v => v.toUInt32.toNat
  | i64 v => v.toUInt64.toNat
  | f32 bits => bits.toNat
  | f64 bits => bits.toNat
  | bool v => v.toNat

/-- The value of a type that a number stands for. Any number but zero is true. -/
def ofCode (type : Scalar) (n : Nat) : ScalarValue :=
  match type with
  | .u8 => u8 (.ofNat n)
  | .u16 => u16 (.ofNat n)
  | .u32 => u32 (.ofNat n)
  | .u64 => u64 (.ofNat n)
  | .i8 => i8 (UInt8.ofNat n).toInt8
  | .i16 => i16 (UInt16.ofNat n).toInt16
  | .i32 => i32 (UInt32.ofNat n).toInt32
  | .i64 => i64 (UInt64.ofNat n).toInt64
  | .f32 => f32 (.ofNat n)
  | .f64 => f64 (.ofNat n)
  | .bool => bool (n != 0)

@[simp] theorem ofCode_code (v : ScalarValue) : ofCode v.type v.code = v := by
  cases v with
  | bool b => cases b <;> rfl
  | _ => simp [type, code, ofCode]

@[simp] theorem type_ofCode (t : Scalar) (n : Nat) : (ofCode t n).type = t := by
  cases t <;> rfl

def zero (type : Scalar) : ScalarValue := ofCode type 0

/-- The bytes of a value on the wire. -/
def encode (v : ScalarValue) : List UInt8 := bigEndian v.type.width v.code

/-- The value of a type that bytes stand for. -/
def decode (type : Scalar) (bytes : List UInt8) : ScalarValue := ofCode type (ofBigEndian bytes)

@[simp] theorem length_encode (v : ScalarValue) : v.encode.length = v.type.width := by
  simp [encode]

/-- Whether two binary floating-point patterns compare equal: no pattern of a NaN equals anything,
and the two zeros are equal. -/
def floatsEqual (fractionBits exponentBits a b : Nat) : Bool :=
  let magnitude (n : Nat) := n % Nat.pow 2 (fractionBits + exponentBits)
  let isNumber (n : Nat) := magnitude n ≤ (Nat.pow 2 exponentBits - 1) * Nat.pow 2 fractionBits
  isNumber a && isNumber b && (a == b || (magnitude a == 0 && magnitude b == 0))

/-- Whether two values have one type and compare equal, floats as numbers. -/
def equals : ScalarValue → ScalarValue → Bool
  | f32 a, f32 b => floatsEqual 23 8 a.toNat b.toNat
  | f64 a, f64 b => floatsEqual 52 11 a.toNat b.toNat
  | a, b => a == b

end ScalarValue

/-! ## Values -/

/-- What a field of a message holds. -/
inductive Value where
  | scalar (v : ScalarValue)
  | text (bytes : List UInt8)
  /-- A value that the message owns through a pointer. -/
  | owned (v : Value)
  /-- The streamed form of a foreign host type. -/
  | foreign (bytes : List UInt8)
deriving Repr, DecidableEq

namespace Value

def initial : FieldKind → Value
  | .scalar type => scalar (.zero type)
  | .text => text []
  | .owned (.scalar type) => owned (scalar (.zero type))
  | .owned .text => owned (text [])
  | .owned (.foreign _) => foreign []

def scalarType? : Value → Option Scalar
  | scalar v => some v.type
  | _ => none

/-- The scalar in a value, if it is one of the given type. -/
def ofType? (type : Scalar) : Value → Option ScalarValue
  | scalar v => if v.type = type then some v else none
  | _ => none

/-- Whether a field of a kind can hold the value. -/
def fits : FieldKind → Value → Bool
  | .scalar type, v => v.scalarType? == some type
  | .text, text _ => true
  | .owned (.scalar type), owned v => v.scalarType? == some type
  | .owned .text, owned (text _) => true
  | .owned (.foreign _), foreign _ => true
  | _, _ => false

/-- The bytes of a text or a foreign object, owned or not. -/
def bytes? : Value → Option (List UInt8)
  | scalar _ => none
  | text bytes | foreign bytes => some bytes
  | owned v => v.bytes?

/-- The number in an unsigned 32-bit scalar. -/
def word? : Value → Option UInt32
  | scalar (.u32 n) => some n
  | _ => none

/-- The fixed-width form of a scalar. No other value has one, and nothing is written for it. -/
def fixedBytes : Value → List UInt8
  | scalar v => v.encode
  | _ => []

/-- What the host stream holds for a value. -/
def streamed : Value → List UInt8
  | scalar v | owned (scalar v) => v.encode
  | v => v.bytes?.getD []

/-- Whether two values are of one shape and compare equal, floats as numbers. -/
def equals : Value → Value → Bool
  | scalar a, scalar b => a.equals b
  | text a, text b => a == b
  | owned a, owned b => a.equals b
  | foreign a, foreign b => a == b
  | _, _ => false

end Value

end WireSchema
