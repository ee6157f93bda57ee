import WireSchema.Wire.Header

/-!
# Writing bytes

A sink holds the bytes that were written to it. Each write puts its bytes behind those of the writes
before it, numbers with the most significant byte first.
-/

namespace WireSchema

open Wire

/-- What has been written so far. -/
structure Sink where
  buffer : Array UInt8 := #[]
deriving Repr, DecidableEq

namespace Sink

/-- The bytes written. -/
def bytes (s : Sink) : List UInt8 := s.buffer.toList

/-- The number of bytes written. -/
def length (s : Sink) : Nat := s.buffer.size

/-- Writes bytes as they are. -/
def raw (s : Sink) (bytes : List UInt8) : Sink := ⟨s.buffer.appendList bytes⟩

/-- Writes an unsigned byte. -/
def u8 (s : Sink) (v : UInt8) : Sink := ⟨s.buffer.push v⟩

/-- Writes an unsigned 32-bit word. -/
def u32 (s : Sink) (v : UInt32) : Sink := s.raw (bigEndian 4 v.toNat)

/-- Writes a scalar at its width, and nothing for any other value. -/
def scalar (s : Sink) (v : Value) : Sink := s.raw v.fixedBytes

/-- Writes the parts of a header. -/
def header (s : Sink) (h : Header) : Sink :=
  (((s.u32 h.typeId).u32 h.destination).u32 h.source).u8 h.number

@[simp] theorem bytes_raw (s : Sink) (bytes : List UInt8) :
    (s.raw bytes).bytes = s.bytes ++ bytes := by
  simp [raw, Sink.bytes]

@[simp] theorem bytes_u8 (s : Sink) (v : UInt8) : (s.u8 v).bytes = s.bytes ++ [v] := by
  simp [u8, bytes]

theorem length_eq (s : Sink) : s.length = s.bytes.length := rfl

end Sink

end WireSchema
