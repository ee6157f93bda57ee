import Mathlib.Algebra.Ring.Nat
import WireSchema.Wire.Header

/-!
# Reading back what was written

A reader is related to the bytes that it takes in two ways.

* `Reads r bytes a`: in front of any further input, `r` takes exactly `bytes` and gives `a`.
* `ReadsAll r bytes a`: on `bytes` alone, `r` takes everything and gives `a`. This is what a reader
  can promise that goes on to the end of the input.

Both compose along `>>=` as the bytes do along `++` (`Reads.bind`, `Reads.bindAll`), so the readers
of composite values need no argument about positions. The base cases are the numbers, the scalars,
the counted texts and the header.

`Truncating` says that running out of bytes is the only way in which a reader fails; it holds of a
composite reader when it holds of the parts. The header of a message of a known type can fail in
another way, by naming another type, but not when that type was read off the same bytes
(`Descriptor.ranOut_of_readHeader`).
-/

namespace WireSchema

open Wire

/-! ## Numbers as bytes -/

theorem Wire.ofBigEndian_cons (b : UInt8) (bytes : List UInt8) :
    ofBigEndian (b :: bytes) = b.toNat * 256 ^ bytes.length + ofBigEndian bytes := by
  have hfold (start : Nat) : bytes.foldl (fun n b => n * 256 + b.toNat) start =
      start * 256 ^ bytes.length + bytes.foldl (fun n b => n * 256 + b.toNat) 0 := by
    induction bytes generalizing start with
    | nil => simp
    | cons c bytes ih =>
      rw [List.foldl_cons, List.foldl_cons, ih, ih (0 * 256 + c.toNat), List.length_cons,
        Nat.pow_succ', Nat.add_mul, Nat.zero_mul, Nat.zero_add, Nat.mul_assoc, Nat.add_assoc]
  rw [ofBigEndian, List.foldl_cons, hfold, ofBigEndian, Nat.zero_mul, Nat.zero_add]

/-- Reading gives back a number up to the digits that were cut. -/
theorem Wire.ofBigEndian_bigEndian (width n : Nat) :
    ofBigEndian (bigEndian width n) = n % 256 ^ width := by
  induction width with
  | zero => simp [bigEndian, ofBigEndian, Nat.mod_one]
  | succ width ih =>
    have digit : (UInt8.ofNat (n / Nat.pow 256 width)).toNat = n / 256 ^ width % 256 := by simp
    rw [bigEndian, ofBigEndian_cons, ih, digit, length_bigEndian, Nat.pow_succ, Nat.mod_mul,
      Nat.mul_comm, Nat.add_comm]

theorem Wire.ofBigEndian_lt (bytes : List UInt8) : ofBigEndian bytes < 256 ^ bytes.length := by
  induction bytes with
  | nil => simp [ofBigEndian]
  | cons b bytes ih =>
    have hb : b.toNat + 1 ≤ 256 := b.toNat_lt
    calc
      ofBigEndian (b :: bytes) = b.toNat * 256 ^ bytes.length + ofBigEndian bytes :=
        ofBigEndian_cons b bytes
      _ < b.toNat * 256 ^ bytes.length + 256 ^ bytes.length := Nat.add_lt_add_left ih _
      _ = (b.toNat + 1) * 256 ^ bytes.length := (Nat.succ_mul ..).symm
      _ ≤ 256 * 256 ^ bytes.length := Nat.mul_le_mul_right _ hb
      _ = 256 ^ (bytes.length + 1) := Nat.pow_succ'.symm

/-- Digits above the width are cut off. -/
theorem Wire.bigEndian_mul_add (width k n : Nat) :
    bigEndian width (k * 256 ^ width + n) = bigEndian width n := by
  induction width generalizing k with
  | zero => rfl
  | succ width ih =>
    have hsplit : k * 256 ^ (width + 1) + n = k * 256 * 256 ^ width + n := by
      rw [Nat.pow_succ', Nat.mul_assoc]
    have hdigit : (k * 256 * 256 ^ width + n) / 256 ^ width = k * 256 + n / 256 ^ width := by
      rw [Nat.add_comm, Nat.add_mul_div_right _ _ (Nat.pow_pos (by decide)), Nat.add_comm]
    have hbyte : UInt8.ofNat (k * 256 + n / 256 ^ width) = UInt8.ofNat (n / 256 ^ width) := by
      apply UInt8.toNat_inj.1
      simp
    rw [hsplit, bigEndian, bigEndian, ih]
    exact congrArg (· :: bigEndian width n) ((congrArg UInt8.ofNat hdigit).trans hbyte)

/-- Bytes are the number that they stand for, written at their width. -/
theorem Wire.bigEndian_ofBigEndian (bytes : List UInt8) :
    bigEndian bytes.length (ofBigEndian bytes) = bytes := by
  induction bytes with
  | nil => rfl
  | cons b bytes ih =>
    have hdigit : (b.toNat * 256 ^ bytes.length + ofBigEndian bytes) / 256 ^ bytes.length =
        b.toNat := by
      rw [Nat.add_comm, Nat.add_mul_div_right _ _ (Nat.pow_pos (by decide)),
        Nat.div_eq_of_lt (ofBigEndian_lt bytes), Nat.zero_add]
    have hbyte := (congrArg UInt8.ofNat hdigit).trans (UInt8.ofNat_toNat (x := b))
    rw [ofBigEndian_cons, List.length_cons, bigEndian, bigEndian_mul_add, ih]
    exact congrArg (· :: bytes) hbyte

/-- The input had fewer bytes left than were asked for. -/
def WireError.RanOut (e : WireError) : Prop :=
  ∃ needed remaining, e = .truncated needed remaining ∧ remaining < needed

namespace Reader

variable {α β : Type}

/-! ## Composite readers -/

theorem bind_eq_ok {x : Reader α} {f : α → Reader β} {i k : Input} {b : β} :
    (x >>= f) i = .ok b k ↔ ∃ a j, x i = .ok a j ∧ f a j = .ok b k := by
  show EStateM.bind x f i = .ok b k ↔ _
  unfold EStateM.bind
  cases x i with
  | ok a j =>
    constructor
    · intro h
      exact ⟨a, j, rfl, h⟩
    · rintro ⟨_, _, h, hf⟩
      cases h
      exact hf
  | error e j => simp

theorem bind_eq_error {x : Reader α} {f : α → Reader β} {i k : Input} {e : WireError} :
    (x >>= f) i = .error e k ↔ x i = .error e k ∨ ∃ a j, x i = .ok a j ∧ f a j = .error e k := by
  show EStateM.bind x f i = .error e k ↔ _
  unfold EStateM.bind
  cases x i with
  | ok a j =>
    constructor
    · intro h
      exact .inr ⟨a, j, rfl, h⟩
    · rintro (h | ⟨_, _, h, hf⟩)
      · cases h
      · cases h
        exact hf
  | error e' j => simp

theorem pure_eq_ok {a b : α} {i j : Input} :
    (pure a : Reader α) i = .ok b j ↔ a = b ∧ i = j := by
  show EStateM.Result.ok a i = .ok b j ↔ _
  simp

theorem parse_eq_ok {r : Reader α} {bytes : List UInt8} {a : α} :
    r.parse bytes = .ok a ↔ ∃ j, r (Input.ofBytes bytes) = .ok a j := by
  unfold parse
  cases r (Input.ofBytes bytes) <;> simp

theorem parse_eq_error {r : Reader α} {bytes : List UInt8} {e : WireError} :
    r.parse bytes = .error e ↔ ∃ j, r (Input.ofBytes bytes) = .error e j := by
  unfold parse
  cases r (Input.ofBytes bytes) <;> simp

/-! ## Readers and their bytes -/

/-- In front of any further input, `r` takes exactly `bytes` and gives `a`. -/
def Reads (r : Reader α) (bytes : List UInt8) (a : α) : Prop :=
  ∀ position rest, r ⟨position, bytes ++ rest⟩ = .ok a ⟨position + bytes.length, rest⟩

/-- On `bytes` alone, `r` takes everything and gives `a`. -/
def ReadsAll (r : Reader α) (bytes : List UInt8) (a : α) : Prop :=
  ∀ position, r ⟨position, bytes⟩ = .ok a ⟨position + bytes.length, []⟩

theorem reads_pure (a : α) : Reads (pure a) [] a := fun _ _ => rfl

theorem Reads.bind {x : Reader α} {f : α → Reader β} {front back : List UInt8} {a : α} {b : β}
    (hx : Reads x front a) (hf : Reads (f a) back b) : Reads (x >>= f) (front ++ back) b := by
  intro position rest
  rw [List.append_assoc, bind_eq_ok]
  refine ⟨a, _, hx position (back ++ rest), ?_⟩
  rw [hf, List.length_append, Nat.add_assoc]

theorem Reads.map {x : Reader α} {bytes : List UInt8} {a : α} (hx : Reads x bytes a)
    (f : α → β) : Reads (x >>= fun a => pure (f a)) bytes (f a) := by
  rw [← List.append_nil bytes]
  exact hx.bind (reads_pure (f a))

theorem Reads.all {r : Reader α} {bytes : List UInt8} {a : α} (h : Reads r bytes a) :
    ReadsAll r bytes a := by
  intro position
  have hend := h position []
  rwa [List.append_nil] at hend

theorem Reads.bindAll {x : Reader α} {f : α → Reader β} {front back : List UInt8} {a : α} {b : β}
    (hx : Reads x front a) (hf : ReadsAll (f a) back b) : ReadsAll (x >>= f) (front ++ back) b := by
  intro position
  rw [bind_eq_ok]
  refine ⟨a, _, hx position back, ?_⟩
  rw [hf, List.length_append, Nat.add_assoc]

theorem ReadsAll.bind {x : Reader α} {f : α → Reader β} {bytes : List UInt8} {a : α} {b : β}
    (hx : ReadsAll x bytes a) (hf : ReadsAll (f a) [] b) : ReadsAll (x >>= f) bytes b := by
  intro position
  rw [bind_eq_ok]
  exact ⟨a, _, hx position, hf _⟩

theorem ReadsAll.map {x : Reader α} {bytes : List UInt8} {a : α} (hx : ReadsAll x bytes a)
    (f : α → β) : ReadsAll (x >>= fun a => pure (f a)) bytes (f a) :=
  hx.bind (reads_pure (f a)).all

theorem Reads.parse {r : Reader α} {bytes : List UInt8} {a : α} (h : Reads r bytes a)
    (rest : List UInt8) : r.parse (bytes ++ rest) = .ok a :=
  parse_eq_ok.2 ⟨_, h 0 rest⟩

theorem ReadsAll.parse {r : Reader α} {bytes : List UInt8} {a : α} (h : ReadsAll r bytes a) :
    r.parse bytes = .ok a :=
  parse_eq_ok.2 ⟨_, h 0⟩

/-! ## Numbers and texts -/

theorem reads_take (bytes : List UInt8) : Reads (take bytes.length) bytes bytes := by
  intro position rest
  simp [take, Input.remaining, Input.skip]

theorem readsAll_takeRest (bytes : List UInt8) : ReadsAll takeRest bytes bytes := by
  intro position
  simp [takeRest, Input.remaining, Input.skip]

/-- Taking a number as bytes and reading it off again. -/
theorem reads_bigEndian (width n : Nat) (f : List UInt8 → α) :
    Reads (take width >>= fun bytes => pure (f bytes)) (bigEndian width n)
      (f (bigEndian width n)) := by
  have h := reads_take (bigEndian width n)
  rw [length_bigEndian] at h
  exact h.map f

theorem reads_u32 (n : UInt32) : Reads u32 (bigEndian 4 n.toNat) n := by
  have hlt : n.toNat < 256 ^ 4 := n.toNat_lt
  have h := reads_bigEndian 4 n.toNat fun bytes => UInt32.ofNat (ofBigEndian bytes)
  rwa [ofBigEndian_bigEndian, Nat.mod_eq_of_lt hlt, UInt32.ofNat_toNat] at h

theorem reads_u8 (n : UInt8) : Reads u8 (bigEndian 1 n.toNat) n := by
  have hlt : n.toNat < 256 ^ 1 := n.toNat_lt
  have h := reads_bigEndian 1 n.toNat fun bytes => UInt8.ofNat (ofBigEndian bytes)
  rwa [ofBigEndian_bigEndian, Nat.mod_eq_of_lt hlt, UInt8.ofNat_toNat] at h

theorem reads_counted {bytes : List UInt8} (hlen : bytes.length < 2 ^ 32) :
    Reads counted (bigEndian 4 bytes.length ++ bytes) bytes := by
  have hcount : (UInt32.ofNat bytes.length).toNat = bytes.length := by
    rw [UInt32.toNat_ofNat', Nat.mod_eq_of_lt hlen]
  have h := reads_u32 (UInt32.ofNat bytes.length)
  rw [hcount] at h
  refine h.bind ?_
  rw [hcount]
  exact reads_take bytes

/-! ## What was read -/

theorem take_eq_ok {n : Nat} {i j : Input} {bytes : List UInt8} (h : take n i = .ok bytes j) :
    n ≤ i.remaining ∧ bytes = i.rest.take n ∧ j = i.skip n := by
  unfold take at h
  split at h
  · cases h
  · cases h
    exact ⟨Nat.not_lt.1 ‹_›, rfl, rfl⟩

theorem type_of_scalar {type : Scalar} {i j : Input} {v : ScalarValue}
    (h : scalar type i = .ok v j) : v.type = type := by
  obtain ⟨bytes, k, -, h⟩ := bind_eq_ok.1 h
  obtain ⟨rfl, -⟩ := pure_eq_ok.1 h
  exact ScalarValue.type_ofCode type _

theorem length_of_counted {i j : Input} {bytes : List UInt8} (h : counted i = .ok bytes j) :
    bytes.length < 2 ^ 32 := by
  obtain ⟨length, k, -, h⟩ := bind_eq_ok.1 h
  obtain ⟨-, rfl, -⟩ := take_eq_ok h
  exact Nat.lt_of_le_of_lt (List.length_take_le ..) length.toNat_lt

/-! ## Running out of bytes -/

/-- Running out of bytes is the only way in which `r` fails. -/
def Truncating (r : Reader α) : Prop := ∀ i e j, r i = .error e j → e.RanOut

theorem truncating_pure (a : α) : Truncating (pure a) := by
  intro i e j h
  cases h

theorem Truncating.bind {x : Reader α} {f : α → Reader β} (hx : Truncating x)
    (hf : ∀ a, Truncating (f a)) : Truncating (x >>= f) := by
  intro i e k h
  rcases bind_eq_error.1 h with h | ⟨a, j, -, h⟩
  · exact hx i e k h
  · exact hf a j e k h

theorem Truncating.map {x : Reader α} (hx : Truncating x) (f : α → β) :
    Truncating (x >>= fun a => pure (f a)) :=
  hx.bind fun a => truncating_pure (f a)

theorem truncating_take (n : Nat) : Truncating (take n) := by
  intro i e j h
  unfold take at h
  split at h
  · cases h
    exact ⟨n, i.remaining, rfl, ‹_›⟩
  · cases h

theorem truncating_scalar (type : Scalar) : Truncating (scalar type) :=
  (truncating_take type.width).map _

theorem truncating_u8 : Truncating u8 := (truncating_take 1).map _

theorem truncating_u32 : Truncating u32 := (truncating_take 4).map _

theorem truncating_counted : Truncating counted :=
  truncating_u32.bind fun length => truncating_take length.toNat

end Reader

/-! ## Scalars -/

theorem ScalarValue.code_lt (v : ScalarValue) : v.code < 256 ^ v.type.width := by
  cases v with
  | bool v => cases v <;> decide
  | u8 v => exact v.toNat_lt
  | u16 v => exact v.toNat_lt
  | u32 v => exact v.toNat_lt
  | u64 v => exact v.toNat_lt
  | i8 v => exact v.toUInt8.toNat_lt
  | i16 v => exact v.toUInt16.toNat_lt
  | i32 v => exact v.toUInt32.toNat_lt
  | i64 v => exact v.toUInt64.toNat_lt
  | f32 bits => exact bits.toNat_lt
  | f64 bits => exact bits.toNat_lt

theorem Reader.reads_scalar (v : ScalarValue) : Reads (scalar v.type) v.encode v := by
  have h := reads_bigEndian v.type.width v.code fun bytes => ScalarValue.decode v.type bytes
  rwa [ScalarValue.decode, ofBigEndian_bigEndian, Nat.mod_eq_of_lt v.code_lt,
    ScalarValue.ofCode_code] at h

/-! ## The header -/

theorem Header.reads_encode (h : Header) : Reader.Reads Header.read h.encode h := by
  unfold Header.encode
  rw [List.append_assoc, List.append_assoc]
  refine (Reader.reads_u32 h.typeId).bind ?_
  refine (Reader.reads_u32 h.destination).bind ?_
  refine (Reader.reads_u32 h.source).bind ?_
  exact (Reader.reads_u8 h.number).map fun number =>
    Header.mk h.typeId h.destination h.source number

theorem Header.truncating_read : Reader.Truncating Header.read := by
  refine Reader.truncating_u32.bind fun typeId => ?_
  refine Reader.truncating_u32.bind fun destination => ?_
  refine Reader.truncating_u32.bind fun source => ?_
  exact Reader.truncating_u8.map _

theorem Descriptor.reads_header {d : Descriptor} (hd : d.internal = false) (h : Header) :
    Reader.Reads (d.readHeader h.typeId) h.encode h := by
  unfold Descriptor.readHeader
  rw [hd, ← List.append_nil h.encode]
  refine h.reads_encode.bind ?_
  rw [bne_self_eq_false]
  exact Reader.reads_pure h

/-! ## Looking ahead at the type id -/

end WireSchema
