import WireSchema.Proofs.Wire.Reading
import WireSchema.Wire.Sink

/-!
# Sinks and inputs

Bytes are written to a sink and read from an input, one datum at a time. Every codec is made of
these writes and reads.

**The mirror of a write** (`Datum.pull`). The read that takes what the write has put there. It knows
the type of a scalar and the length of a byte string, and nothing else of what was written.

**Reached inputs** (`Input.Reached`). All inputs that come of a byte string by reading, whatever is
read and whether it succeeds or not. A header that breaks off has moved the input by the words that
were complete, so failed reads are steps like others. A step only moves on (`Reader.Advances`).

Main result: `streams_mirror`.
-/

namespace WireSchema

open Wire

/-! ## Writes and reads -/

/-- One write to a sink. -/
inductive Datum where
  | u8 (v : UInt8)
  | u32 (v : UInt32)
  | raw (bytes : List UInt8)
  | scalar (v : ScalarValue)
  | header (h : Header)
deriving Repr, DecidableEq

/-- One read from an input. -/
inductive Pull where
  | u8
  | u32
  | take (count : Nat)
  | takeRest
  | scalar (type : Scalar)
  | header
deriving Repr, DecidableEq

namespace Pull

/-- What a read takes from an input. -/
def read : Pull → Reader Datum
  | u8 => do return .u8 (← Reader.u8)
  | u32 => do return .u32 (← Reader.u32)
  | take count => do return .raw (← Reader.take count)
  | takeRest => do return .raw (← Reader.takeRest)
  | scalar type => do return .scalar (← Reader.scalar type)
  | header => do return .header (← Header.read)

/-- What reads in a row take from an input. -/
def readAll : List Pull → Reader (List Datum)
  | [] => return []
  | p :: rest => do
    let d ← p.read
    return d :: (← readAll rest)

/-- The number of bytes that a read needs, if it takes them all at once. -/
def needed? : Pull → Option Nat
  | u8 => some 1
  | u32 => some 4
  | take count => some count
  | scalar type => some type.width
  | takeRest | header => none

end Pull

theorem Wire.bigEndian_one (v : UInt8) : bigEndian 1 v.toNat = [v] := by
  simp [bigEndian]

namespace Datum

/-- The sink with a datum behind what it holds. -/
def write (s : Sink) : Datum → Sink
  | u8 v => s.u8 v
  | u32 v => s.u32 v
  | raw bytes => s.raw bytes
  | scalar v => s.scalar (.scalar v)
  | header h => s.header h

/-- The sink that holds data and nothing else. -/
def writeAll (data : List Datum) : Sink := data.foldl write {}

/-- The read that takes what a write has put there. -/
def pull : Datum → Pull
  | u8 _ => .u8
  | u32 _ => .u32
  | raw bytes => .take bytes.length
  | scalar v => .scalar v.type
  | header _ => .header

/-! ## What is written -/

/-- The bytes of a datum. -/
def encode : Datum → List UInt8
  | u8 v => [v]
  | u32 v => bigEndian 4 v.toNat
  | raw bytes => bytes
  | scalar v => v.encode
  | header h => h.encode

theorem bytes_write (s : Sink) (d : Datum) : (d.write s).bytes = s.bytes ++ d.encode := by
  cases d with
  | u8 v => exact s.bytes_u8 v
  | u32 v => exact s.bytes_raw _
  | raw bytes => exact s.bytes_raw bytes
  | scalar v => exact s.bytes_raw v.encode
  | header h => simp [write, encode, Sink.header, Sink.u32, Header.encode, bigEndian_one]

theorem bytes_foldl_write (data : List Datum) (s : Sink) :
    (data.foldl write s).bytes = s.bytes ++ data.flatMap encode := by
  induction data generalizing s with
  | nil => simp
  | cons d data ih => rw [List.foldl_cons, ih, bytes_write, List.flatMap_cons, List.append_assoc]

theorem bytes_writeAll (data : List Datum) : (writeAll data).bytes = data.flatMap encode :=
  bytes_foldl_write data {}

/-! ## Reading it back -/

/-- The mirror of a write takes exactly what was written. -/
theorem reads_pull (d : Datum) : Reader.Reads d.pull.read d.encode d := by
  cases d with
  | u8 v =>
    have hread := (Reader.reads_u8 v).map Datum.u8
    rwa [bigEndian_one] at hread
  | u32 v => exact (Reader.reads_u32 v).map Datum.u32
  | raw bytes => exact (Reader.reads_take bytes).map Datum.raw
  | scalar v => exact (Reader.reads_scalar v).map Datum.scalar
  | header h => exact h.reads_encode.map Datum.header

theorem reads_readAll (data : List Datum) :
    Reader.Reads (Pull.readAll (data.map pull)) (data.flatMap encode) data := by
  induction data with
  | nil => exact Reader.reads_pure []
  | cons d data ih => exact d.reads_pull.bind (ih.map (d :: ·))

end Datum

/-! ## Moving on -/

namespace Input

/-- The input stands in a byte string. -/
structure Inside (i : Input) (bytes : List UInt8) : Prop where
  rest : i.rest = bytes.drop i.position
  position : i.position ≤ bytes.length

theorem Inside.position_add_remaining {i : Input} {bytes : List UInt8} (h : i.Inside bytes) :
    i.position + i.remaining = bytes.length := by
  have hposition := h.position
  rw [remaining, h.rest, List.length_drop]
  omega

theorem remaining_skip (i : Input) (n : Nat) : (i.skip n).remaining = i.remaining - n := by
  simp [remaining, skip]

theorem skip_skip (i : Input) (n m : Nat) : (i.skip n).skip m = i.skip (n + m) := by
  simp [skip, Nat.add_assoc]

theorem skip_zero (i : Input) : i.skip 0 = i := by
  simp [skip]

theorem Inside.skip {i : Input} {bytes : List UInt8} (h : i.Inside bytes) {n : Nat}
    (hn : n ≤ i.remaining) : (i.skip n).Inside bytes := by
  have htotal := h.position_add_remaining
  constructor
  · simp [Input.skip, h.rest, Nat.add_comm]
  · simp only [Input.skip]
    omega

end Input

namespace Reader

variable {α β : Type}

/-- Where a reader leaves its input, whether it fails or not. -/
def exit (r : Reader α) (i : Input) : Input :=
  match r i with
  | .ok _ j => j
  | .error _ j => j

/-- A reader skips some bytes of its input and does nothing else to it. -/
def Advances (r : Reader α) : Prop := ∀ i, ∃ n, n ≤ i.remaining ∧ r.exit i = i.skip n

theorem advances_pure (a : α) : Advances (pure a) := by
  intro i
  exact ⟨0, Nat.zero_le _, i.skip_zero.symm⟩

theorem Advances.bind {x : Reader α} {f : α → Reader β} (hx : Advances x)
    (hf : ∀ a, Advances (f a)) : Advances (x >>= f) := by
  intro i
  obtain ⟨n, hn, hexit⟩ := hx i
  unfold exit at hexit ⊢
  cases hread : x i with
  | error e j =>
    rw [hread] at hexit
    rw [bind_eq_error.2 (.inl hread)]
    exact ⟨n, hn, hexit⟩
  | ok a j =>
    rw [hread] at hexit
    obtain rfl : j = i.skip n := hexit
    obtain ⟨m, hm, hexit⟩ := hf a (i.skip n)
    rw [Input.remaining_skip] at hm
    rw [Input.skip_skip] at hexit
    refine ⟨n + m, by omega, ?_⟩
    unfold exit at hexit
    cases hrest : f a (i.skip n) with
    | ok b k =>
      rw [hrest] at hexit
      rw [bind_eq_ok.2 ⟨a, _, hread, hrest⟩]
      exact hexit
    | error e k =>
      rw [hrest] at hexit
      rw [bind_eq_error.2 (.inr ⟨a, _, hread, hrest⟩)]
      exact hexit

theorem Advances.map {x : Reader α} (hx : Advances x) (f : α → β) :
    Advances (x >>= fun a => pure (f a)) :=
  hx.bind fun a => advances_pure (f a)

theorem advances_take (n : Nat) : Advances (take n) := by
  intro i
  unfold exit take
  by_cases h : i.remaining < n
  · rw [if_pos h]
    exact ⟨0, Nat.zero_le _, i.skip_zero.symm⟩
  · rw [if_neg h]
    exact ⟨n, Nat.not_lt.1 h, rfl⟩

theorem advances_takeRest : Advances takeRest := by
  intro i
  exact ⟨i.remaining, Nat.le_refl _, rfl⟩

theorem advances_u8 : Advances u8 := (advances_take 1).map _

theorem advances_u32 : Advances u32 := (advances_take 4).map _

theorem advances_scalar (type : Scalar) : Advances (scalar type) := (advances_take type.width).map _

end Reader

theorem Header.advances_read : Reader.Advances Header.read := by
  refine Reader.advances_u32.bind fun typeId => ?_
  refine Reader.advances_u32.bind fun destination => ?_
  refine Reader.advances_u32.bind fun source => ?_
  exact Reader.advances_u8.map _

theorem Pull.advances_read (p : Pull) : Reader.Advances p.read := by
  cases p with
  | u8 => exact Reader.advances_u8.map _
  | u32 => exact Reader.advances_u32.map _
  | take count => exact (Reader.advances_take count).map _
  | takeRest => exact Reader.advances_takeRest.map _
  | scalar type => exact (Reader.advances_scalar type).map _
  | header => exact Header.advances_read.map _

/-- The inputs that come of a byte string by reading from it. -/
inductive Input.Reached (bytes : List UInt8) : Input → Prop
  | start : Reached bytes (Input.ofBytes bytes)
  | step {i : Input} (h : Reached bytes i) (p : Pull) : Reached bytes (p.read.exit i)

theorem Input.Reached.inside {bytes : List UInt8} {i : Input} (h : Input.Reached bytes i) :
    i.Inside bytes := by
  induction h with
  | start => exact ⟨rfl, Nat.zero_le _⟩
  | step h p ih =>
    obtain ⟨n, hn, hexit⟩ := p.advances_read _
    rw [hexit]
    exact ih.skip hn

/-! ## Reads that fail -/

/-- The reader takes `n` bytes, or it says how many there are and takes none. -/
def Reader.Exact {α : Type} (r : Reader α) (n : Nat) : Prop :=
  ∀ i : Input, (i.remaining < n → r i = .error (.truncated n i.remaining) i) ∧
    (n ≤ i.remaining → ∃ a, r i = .ok a (i.skip n))

theorem Reader.exact_take (n : Nat) : Reader.Exact (Reader.take n) n := by
  intro i
  constructor
  · intro h
    exact if_pos h
  · intro h
    exact ⟨i.rest.take n, if_neg (Nat.not_lt.2 h)⟩

theorem Reader.Exact.map {α β : Type} {r : Reader α} {n : Nat} (h : r.Exact n) (f : α → β) :
    Reader.Exact (r >>= fun a => pure (f a)) n := by
  intro i
  constructor
  · intro hshort
    exact bind_eq_error.2 (.inl ((h i).1 hshort))
  · intro henough
    obtain ⟨a, ha⟩ := (h i).2 henough
    exact ⟨f a, bind_eq_ok.2 ⟨a, _, ha, rfl⟩⟩

theorem Pull.exact_read {p : Pull} {n : Nat} (h : p.needed? = some n) : Reader.Exact p.read n := by
  cases p with
  | takeRest | header => cases h
  | u8 =>
    cases h
    exact ((Reader.exact_take 1).map _).map _
  | u32 =>
    cases h
    exact ((Reader.exact_take 4).map _).map _
  | take count =>
    cases h
    exact (Reader.exact_take _).map _
  | scalar type =>
    cases h
    exact ((Reader.exact_take type.width).map _).map _

/-! ## The law -/

/-- **Streams mirror each other.** Whatever is written, in whatever order, the mirrored reads give
it back and stop where it ends. A scalar has the width of its type. A reached input is a position in
the bytes that it came of; a read that needs more than there is left says so and moves nothing, and
otherwise takes just what it needs. -/
theorem streams_mirror :
    (∀ (data : List Datum) (suffix : List UInt8),
      Pull.readAll (data.map Datum.pull) (.ofBytes ((Datum.writeAll data).bytes ++ suffix)) =
        .ok data ⟨(Datum.writeAll data).length, suffix⟩) ∧
    (∀ (s : Sink) (v : ScalarValue),
      (s.scalar (.scalar v)).length = s.length + v.type.width) ∧
    ∀ (bytes : List UInt8) (i : Input), i.Reached bytes →
      i.position + i.remaining = bytes.length ∧
      ∀ (p : Pull) (n : Nat), p.needed? = some n →
        (i.remaining < n → p.read i = .error (.truncated n i.remaining) i) ∧
        (n ≤ i.remaining → ∃ d, p.read i = .ok d (i.skip n)) := by
  refine ⟨fun data suffix => ?_, fun s v => ?_, fun bytes i hreached => ?_⟩
  · have hread := Datum.reads_readAll data 0 suffix
    rw [Nat.zero_add] at hread
    rw [Sink.length_eq, Datum.bytes_writeAll]
    exact hread
  · rw [Sink.length_eq, Sink.length_eq, Sink.scalar, Sink.bytes_raw, List.length_append]
    exact congrArg (s.bytes.length + ·) v.length_encode
  · exact ⟨hreached.inside.position_add_remaining, fun p n hp => Pull.exact_read hp i⟩

/-- A header, a negative number, a signalling NaN and a byte string, and a word that breaks off. -/
theorem streams_mirror_mixed :
    Pull.readAll [.header, .scalar .i16, .scalar .f32, .take 2] (.ofBytes
        [0, 0, 0, 9, 0, 0, 2, 1, 0, 0, 0, 0, 1, 0xFF, 0xFE, 0x7F, 0x80, 0, 1, 5, 6, 7]) =
      .ok [.header ⟨9, 0x201, 0, 1⟩, .scalar (.i16 (-2)), .scalar (.f32 0x7F800001), .raw [5, 6]]
        ⟨21, [7]⟩ ∧
    Pull.u32.read (.ofBytes [7]) = .error (.truncated 4 1) (.ofBytes [7]) := by
  obtain ⟨hmirror, -, hreached⟩ := streams_mirror
  have hread := hmirror
    [.header ⟨9, 0x201, 0, 1⟩, .scalar (.i16 (-2)), .scalar (.f32 0x7F800001), .raw [5, 6]] [7]
  have hshort := (hreached [7] (.ofBytes [7]) .start).2 .u32 4 rfl
  exact ⟨hread, hshort.1 (by decide)⟩

end WireSchema
