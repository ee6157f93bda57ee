import Mathlib.Algebra.Order.BigOperators.Group.List
import Mathlib.Algebra.Order.Ring.Nat
import WireSchema.Proofs.Wire.RecordRoundTrip

/-!
# The size of a record on the wire

Firmware makes room for a record by its declared fields and its capacities, and writes it by its
cells and the bytes of its texts that are in use. Nothing but the layout of the record keeps the
second count below the first.

**Theorem (`size_of_reachable`).** Whatever was done to a record, it takes a fixed number of bytes,
four bytes for each text and the bytes of the texts. This is at most `maxSize`, and as much only if
all texts fill their regions. A block of memory takes the record exactly if it is no shorter than
its bytes. They then lie at the start of the block and the rest of it is as before; otherwise all of
it is.

The scalars have the widths of the declared fields, because every cell suits its field
(`LaidOut.length_fixed`), and a text is as long as its count says (`Sound.length_textAt`).
-/

namespace WireSchema

open Wire

/-! ## Widths -/

/-- The bytes of a field on the wire that do not depend on its value. -/
def Field.fixedWidth (f : Field) : Nat :=
  match f.kind with
  | .scalar type => type.width
  | _ => 0

theorem Record.maxSize_eq (r : Record) : r.maxSize =
    Header.size + ((r.descriptor.fields.map Field.fixedWidth).sum +
      (r.descriptor.textFields.map fun p => 4 + (r.region p.1).capacity.toNat).sum) :=
  Nat.add_assoc ..

/-- The scalars in cells are as wide as the fields say. -/
theorem LaidOut.length_fixed {start stop : Nat} {fields : List Field} {cells : List Cell}
    (h : LaidOut start fields cells stop) :
    ((cells.filterMap Cell.scalar?).flatMap ScalarValue.encode).length =
      (fields.map Field.fixedWidth).sum := by
  induction h with
  | nil => rfl
  | @cons _ _ f _ c cells hsuits _ _ ih =>
    rw [List.map_cons, List.sum_cons, ← ih, List.filterMap_cons]
    cases c with
    | scalar v =>
      have hkind : f.kind = .scalar v.type := hsuits
      simp [Cell.scalar?, Field.fixedWidth, hkind]
    | text region => simp [Cell.scalar?, Field.fixedWidth, hsuits.1]
    | absent =>
      cases hkind : f.kind with
      | owned core => simp [Cell.scalar?, Field.fixedWidth, hkind]
      | _ => simp [Cell.Suits, hkind, FieldKind.isOwned] at hsuits

/-- Sums of terms that are no larger one by one are equal only if all terms are. -/
theorem sum_map_eq_iff {α : Type} {items : List α} {f g : α → Nat} (h : ∀ a ∈ items, f a ≤ g a) :
    (items.map f).sum = (items.map g).sum ↔ ∀ a ∈ items, f a = g a := by
  constructor
  · intro hsum a ha
    by_contra hne
    have hlt := List.sum_lt_sum f g h ⟨a, ha, Nat.lt_of_le_of_ne (h a ha) hne⟩
    exact Nat.ne_of_lt hlt hsum
  · intro hterms
    rw [List.map_congr_left hterms]

namespace Record

variable {r : Record} {bytes block : List UInt8}

/-! ## The size of a sound record -/

section Sizes

variable (hr : r.Sound)
include hr

theorem Sound.length_textAt {p : Nat × Field} (hp : p ∈ r.descriptor.textFields) :
    (r.textAt p.1).length = (r.region p.1).length.toNat := by
  obtain ⟨hf, hkind⟩ := Descriptor.mem_textFields.1 hp
  have hle := UInt32.le_iff_toNat_le.1 (hr.text_cell hf hkind).2
  rw [textAt, Buffer.length_slice, Nat.min_eq_left hle]

theorem Sound.length_textAt_le {p : Nat × Field} (hp : p ∈ r.descriptor.textFields) :
    4 + (r.textAt p.1).length ≤ 4 + (r.region p.1).capacity.toNat := by
  obtain ⟨hf, hkind⟩ := Descriptor.mem_textFields.1 hp
  rw [hr.length_textAt hp]
  exact Nat.add_le_add_left (UInt32.le_iff_toNat_le.1 (hr.text_cell hf hkind).2) 4

/-- The bytes of a record: as many as its fields are wide, and the texts behind their counts. -/
theorem Sound.exists_encode (hi : r.descriptor.internal = false) : ∃ bytes, r.encode = .ok bytes ∧
    bytes.length = Header.size + ((r.descriptor.fields.map Field.fixedWidth).sum +
      (r.descriptor.textFields.map fun p => 4 + (r.textAt p.1).length).sum) := by
  refine ⟨_, hr.encode_eq hi, ?_⟩
  have htexts : (r.texts.flatMap countedText).length =
      (r.descriptor.textFields.map fun p => 4 + (r.textAt p.1).length).sum := by
    rw [hr.texts_eq, List.length_flatMap, List.map_map]
    congr 1
    apply List.map_congr_left
    intro p _
    simp [countedText, countWidth]
  rw [List.length_append, List.length_append, Header.length_encode, scalars,
    LaidOut.length_fixed hr, htexts, Nat.add_assoc]

end Sizes

/-! ## Blocks of memory -/

theorem encodeInto_of_le (h : r.encode = .ok bytes) (hle : bytes.length ≤ block.length) :
    r.encodeInto block = (.ok bytes.length, bytes ++ block.drop bytes.length) := by
  rw [encodeInto, h]
  exact if_neg (Nat.not_lt.2 hle)

theorem encodeInto_of_lt (h : r.encode = .ok bytes) (hlt : block.length < bytes.length) :
    r.encodeInto block = (.error (.truncated bytes.length block.length), block) := by
  rw [encodeInto, h]
  exact if_pos hlt

/-- What comes of an attempt to write `bytes` to the start of a block of memory. -/
structure Stored (bytes block : List UInt8) (result : Except WireError Nat × List UInt8) :
    Prop where
  ok_iff : (∃ n, result.1 = .ok n) ↔ bytes.length ≤ block.length
  count_eq : ∀ n, result.1 = .ok n → n = bytes.length
  start_eq : bytes.length ≤ block.length → result.2.take bytes.length = bytes
  rest_eq : bytes.length ≤ block.length →
    result.2.drop bytes.length = block.drop bytes.length
  /-- A block that is too short is left as it was. -/
  refused_eq : block.length < bytes.length → result.2 = block

theorem stored_encodeInto (h : r.encode = .ok bytes) (block : List UInt8) :
    Stored bytes block (r.encodeInto block) := by
  by_cases hle : bytes.length ≤ block.length
  · rw [encodeInto_of_le h hle]
    refine ⟨⟨fun _ => hle, fun _ => ⟨_, rfl⟩⟩, ?_, fun _ => List.take_left, fun _ => List.drop_left,
      fun hlt => absurd hle (Nat.not_le.2 hlt)⟩
    rintro n ⟨⟩
    rfl
  · rw [encodeInto_of_lt h (Nat.not_le.1 hle)]
    refine ⟨⟨?_, fun hroom => absurd hroom hle⟩, ?_, fun hroom => absurd hroom hle,
      fun hroom => absurd hroom hle, fun _ => rfl⟩
    · rintro ⟨n, ⟨⟩⟩
    · rintro n ⟨⟩

/-- **The size of a record on the wire.** Whatever was done to a record, its bytes are its header,
its scalars at their declared widths and its texts behind four bytes each. They are at most
`maxSize`, which they reach only if all texts fill their regions. A block of memory takes them
exactly if it has room for them, so one of `maxSize` bytes always does. -/
theorem size_of_reachable {d : Descriptor} (hi : d.internal = false) (hr : Reachable d r) :
    ∃ bytes, r.encode = .ok bytes ∧
      bytes.length = 13 + (d.fields.map Field.fixedWidth).sum +
        (d.textFields.map fun p => 4 + (r.textAt p.1).length).sum ∧
      bytes.length ≤ r.maxSize ∧
      (bytes.length = r.maxSize ↔
        ∀ p ∈ d.textFields, (r.textAt p.1).length = (r.region p.1).capacity.toNat) ∧
      ∀ block, Stored bytes block (r.encodeInto block) ∧
        (r.maxSize ≤ block.length → (r.encodeInto block).1 = .ok bytes.length) := by
  obtain ⟨hsound, rfl⟩ := hr.sound
  obtain ⟨bytes, hbytes, hlength⟩ := hsound.exists_encode hi
  have hterms : ∀ p ∈ r.descriptor.textFields,
      4 + (r.textAt p.1).length ≤ 4 + (r.region p.1).capacity.toNat :=
    fun p hp => hsound.length_textAt_le hp
  have hle : bytes.length ≤ r.maxSize := by
    rw [hlength, maxSize_eq]
    exact Nat.add_le_add_left (Nat.add_le_add_left (List.sum_le_sum hterms) _) _
  refine ⟨bytes, hbytes, hlength.trans (Nat.add_assoc ..).symm, hle, ?_, fun block => ?_⟩
  · rw [hlength, maxSize_eq, Nat.add_left_cancel_iff, Nat.add_left_cancel_iff,
      sum_map_eq_iff hterms]
    simp only [Nat.add_left_cancel_iff]
  · refine ⟨stored_encodeInto hbytes block, fun hroom => ?_⟩
    rw [encodeInto_of_le hbytes (Nat.le_trans hle hroom)]

/-- A text in use by half and an empty one leave three bytes of the largest size. The record fits
into a longer block than its own size, but not into a shorter one. -/
theorem size_of_mixed : ∃ bytes, Reachable Descriptor.mixed mixed ∧ mixed.encode = .ok bytes ∧
    bytes.length = 25 ∧ mixed.maxSize = 28 ∧ bytes.length ≠ mixed.maxSize ∧
    mixed.encodeInto (.replicate 27 9) = (.ok 25, bytes ++ [9, 9]) ∧
    (mixed.encodeInto (.replicate 24 9)).2 = .replicate 24 9 := by
  obtain ⟨bytes, hbytes, hlength, hle, hfull, hblock⟩ := size_of_reachable rfl reachable_mixed
  have hcount : bytes.length = 25 := hlength
  obtain ⟨hlong, -⟩ := hblock (.replicate 27 9)
  obtain ⟨hshort, -⟩ := hblock (.replicate 24 9)
  refine ⟨bytes, reachable_mixed, hbytes, hcount, rfl, ?_, ?_, ?_⟩
  · intro heq
    exact absurd (hfull.1 heq (0, ⟨"a", "std::string", .text⟩) (by decide)) (by decide)
  · obtain ⟨n, hn⟩ := hlong.ok_iff.2 (by rw [hcount]; decide)
    obtain rfl := hlong.count_eq n hn
    have hstart := hlong.start_eq (by rw [hcount]; decide)
    have hrest := hlong.rest_eq (by rw [hcount]; decide)
    rw [hcount] at hn hstart hrest
    refine Prod.ext hn ?_
    rw [← List.take_append_drop 25 (mixed.encodeInto _).2, hstart, hrest]
    rfl
  · exact hshort.refused_eq (by rw [hcount]; decide)

end Record

end WireSchema
