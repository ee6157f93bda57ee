/-!
# Scalar types

The eleven numeric types that both representations carry, with their C names and their width on the
wire.
-/

namespace WireSchema

/-- A fixed-width number or a truth value. -/
inductive Scalar where
  | u8 | u16 | u32 | u64
  | i8 | i16 | i32 | i64
  | f32 | f64
  | bool
deriving Repr, DecidableEq, Inhabited

namespace Scalar

/-- Every scalar type. -/
def all : List Scalar := [u8, u16, u32, u64, i8, i16, i32, i64, f32, f64, bool]

def cName : Scalar → String
  | u8 => "uint8_t"
  | u16 => "uint16_t"
  | u32 => "uint32_t"
  | u64 => "uint64_t"
  | i8 => "int8_t"
  | i16 => "int16_t"
  | i32 => "int32_t"
  | i64 => "int64_t"
  | f32 => "float"
  | f64 => "double"
  | bool => "bool"

def ofCName? (name : String) : Option Scalar := all.find? (·.cName == name)

/-- Bytes on the wire. -/
def width : Scalar → Nat
  | u8 | i8 | bool => 1
  | u16 | i16 => 2
  | u32 | i32 | f32 => 4
  | u64 | i64 | f64 => 8

end Scalar

end WireSchema
