import WireSchema.Proofs.Wire.RecordRoundTrip

/-!
# Equal records

Records are compared by their contents: header, scalars and texts, but neither capacities nor what
lies in the unused part of a region.

**Theorem (`equals_iff_encode`).** Two records of a message without floats are equal exactly if they
have the same bytes, whatever was done to each of them.

Equal contents are written in the same way, wherever they lie in the two buffers. The other way
round, the parts of a record delimit themselves: two readings of the same bytes by the same reader
stop at the same place with the same result (`Reads.unique`), so the headers of the two records are
the same, then their scalars, then their texts (`Sound.encode_eq_iff`). Floats are left out because
they are compared as numbers: a zero equals the negative zero, which has other bytes, and what is
not a number differs from itself.
-/

namespace WireSchema

open Wire

/-- The same bytes are read in only one way. -/
theorem Reader.Reads.unique {α : Type} {r : Reader α} {front front' rest rest' : List UInt8}
    {a a' : α} (h : Reads r front a) (h' : Reads r front' a')
    (hbytes : front ++ rest = front' ++ rest') : a = a' ∧ rest = rest' := by
  have hread := h 0 rest
  rw [hbytes, h' 0 rest'] at hread
  injection hread with hvalue hinput
  injection hinput with _ hrest
  exact ⟨hvalue.symm, hrest.symm⟩

/-- But for floats, equal scalars are the same. -/
theorem ScalarValue.equals_iff_eq {a b : ScalarValue} (h : a.type ≠ .f32) (h' : a.type ≠ .f64) :
    a.equals b = true ↔ a = b := by
  unfold equals
  split
  · exact absurd rfl h
  · exact absurd rfl h'
  · exact beq_iff_eq

/-- No field is a float. -/
def Descriptor.FloatFree (d : Descriptor) : Prop :=
  ∀ f ∈ d.fields, f.kind ≠ .scalar .f32 ∧ f.kind ≠ .scalar .f64

namespace Record

variable {r s : Record}

section Sound

variable (hr : r.Sound) (hs : s.Sound) (hd : s.descriptor = r.descriptor)
include hr hs hd

/-! ## Equal bytes -/

/-- Records with the same bytes have the same contents. -/
theorem Sound.contents_of_encode (h : r.header.encode ++ r.scalars.flatMap ScalarValue.encode ++
      r.texts.flatMap countedText = s.header.encode ++ s.scalars.flatMap ScalarValue.encode ++
      s.texts.flatMap countedText) :
    r.header = s.header ∧ r.scalars = s.scalars ∧ r.texts = s.texts := by
  rw [List.append_assoc, List.append_assoc] at h
  have hfixed := LaidOut.reads_fixed hs
  have htexts := LaidOut.reads_texts hs s.buffer
  rw [hd] at hfixed htexts
  obtain ⟨hheader, h⟩ := r.header.reads_encode.unique s.header.reads_encode h
  obtain ⟨hscalars, h⟩ := (LaidOut.reads_fixed hr).unique hfixed h
  rw [← List.append_nil (r.texts.flatMap _), ← List.append_nil (s.texts.flatMap _)] at h
  exact ⟨hheader, hscalars, ((LaidOut.reads_texts hr r.buffer).unique htexts h).1⟩

theorem Sound.encode_eq_iff (hi : r.descriptor.internal = false) :
    r.encode = s.encode ↔ r.header = s.header ∧ r.scalars = s.scalars ∧ r.texts = s.texts := by
  rw [hr.encode_eq hi, hs.encode_eq (by rw [hd, hi])]
  constructor
  · intro h
    exact hr.contents_of_encode hs hd (Except.ok.inj h)
  · rintro ⟨hheader, hscalars, htexts⟩
    rw [hheader, hscalars, htexts]

/-! ## Equal contents -/

theorem Sound.scalars_eq_iff :
    r.scalars = s.scalars ↔ ∀ p ∈ r.descriptor.fixedFields, r.scalar? p.1 = s.scalar? p.1 := by
  have hmap := hs.map_scalar?
  rw [hd] at hmap
  rw [← List.map_inj_left, hr.map_scalar?, hmap, List.map_inj_right fun _ _ => Option.some.inj]

theorem Sound.texts_eq_iff :
    r.texts = s.texts ↔ ∀ p ∈ r.descriptor.textFields, r.textAt p.1 = s.textAt p.1 := by
  rw [hr.texts_eq, hs.texts_eq, hd, List.map_inj_left]

/-- Scalars that are no floats are compared as they are. -/
theorem Sound.scalarsEqual_iff (hfloat : r.descriptor.FloatFree) {p : Nat × Field}
    (hp : p ∈ r.descriptor.fixedFields) :
    r.scalarsEqual s p.1 = true ↔ r.scalar? p.1 = s.scalar? p.1 := by
  obtain ⟨hf, type, hkind⟩ := Descriptor.of_mem_fixedFields hp
  obtain ⟨a, ha, rfl⟩ := hr.scalar_cell hf hkind
  obtain ⟨b, hb, -⟩ := hs.scalar_cell (by rw [hd]; exact hf) hkind
  obtain ⟨h32, h64⟩ := hfloat p.2 (List.mem_of_getElem? hf)
  rw [hkind] at h32 h64
  rw [scalarsEqual, scalar?_of_cell ha, scalar?_of_cell hb, Option.some_inj]
  exact ScalarValue.equals_iff_eq (fun h => h32 (by rw [h])) (fun h => h64 (by rw [h]))

theorem Sound.equals_iff (hfloat : r.descriptor.FloatFree) :
    r.equals s = true ↔ r.header = s.header ∧ r.scalars = s.scalars ∧ r.texts = s.texts := by
  have hscalars : (∀ p ∈ r.descriptor.fixedFields, r.scalarsEqual s p.1 = true) ↔
      r.scalars = s.scalars := by
    rw [hr.scalars_eq_iff hs hd]
    exact forall₂_congr fun p hp => hr.scalarsEqual_iff hs hd hfloat hp
  simp only [equals, hd, Bool.and_eq_true, List.all_eq_true, beq_iff_eq, true_and, hscalars,
    hr.texts_eq_iff hs hd, and_assoc]

end Sound

/-- **Records are equal exactly if they have the same bytes.** Each of the two records of a message
may have its own history, with other capacities, other places of its texts and other bytes behind
them. Both can be encoded, and comparing them is comparing what comes out. -/
theorem equals_iff_encode {d : Descriptor} (hi : d.internal = false) (hfloat : d.FloatFree)
    (hr : Reachable d r) (hs : Reachable d s) :
    ∃ a b, r.encode = .ok a ∧ s.encode = .ok b ∧ (r.equals s = true ↔ a = b) := by
  obtain ⟨hsound, rfl⟩ := hr.sound
  obtain ⟨hsound', hd⟩ := hs.sound
  have ha := hsound.encode_eq hi
  have hb := hsound'.encode_eq (by rw [hd, hi])
  refine ⟨_, _, ha, hb, ?_⟩
  rw [hsound.equals_iff hsound' hd hfloat, ← hsound.encode_eq_iff hsound' hd hi, ha, hb,
    Except.ok.injEq]

/-- A record with the contents of `mixed` in larger regions: both of its texts were longer
before. -/
def roomier : Record :=
  edits ⟨Descriptor.mixed, ⟨7, 256, 9, 3⟩,
    [.text ⟨0, 0, 6⟩, .scalar (.i16 (-2)), .text ⟨6, 0, 8⟩], .zeroed 14⟩
    [.setText "a" [9, 9, 9, 9, 9], .setText "c" [1, 2, 3], .set "Clength" (.scalar (.u32 0)),
      .setText "a" [65, 66]]

theorem reachable_roomier : Reachable Descriptor.mixed roomier := by
  have hcreate : create Descriptor.mixed ⟨7, 256, 9, 3⟩
      [.scalar (.u32 6), .scalar (.i16 (-2)), .scalar (.u32 8)] =
      .ok ⟨Descriptor.mixed, ⟨7, 256, 9, 3⟩,
        [.text ⟨0, 0, 6⟩, .scalar (.i16 (-2)), .text ⟨6, 0, 8⟩], .zeroed 14⟩ := rfl
  exact (Reachable.create hcreate).edits _

/-- Records of one message that differ in all capacities and in the bytes behind their texts are
equal, and one of them differs from itself with a byte less. -/
theorem equals_iff_encode_roomier : Reachable Descriptor.mixed mixed ∧
    Reachable Descriptor.mixed roomier ∧ (mixed.region 2).offset ≠ (roomier.region 2).offset ∧
    mixed.buffer.byteAt 2 ≠ roomier.buffer.byteAt 2 ∧ mixed.equals roomier = true ∧
    mixed.equals (roomier.edit (.set "Alength" (.scalar (.u32 1)))) = false := by
  have hfloat : Descriptor.mixed.FloatFree := by
    unfold Descriptor.FloatFree
    decide
  obtain ⟨a, b, ha, hb, hsame⟩ := equals_iff_encode rfl hfloat reachable_mixed reachable_roomier
  obtain ⟨_, c, ha', hc, hother⟩ := equals_iff_encode rfl hfloat reachable_mixed
    (reachable_roomier.edit (.set "Alength" (.scalar (.u32 1))))
  cases ha.symm.trans ha'
  refine ⟨reachable_mixed, reachable_roomier, by decide, by decide, hsame.2 ?_, ?_⟩
  · cases ha
    cases hb
    decide
  · rw [Bool.eq_false_iff, ne_eq, hother]
    cases ha
    cases hc
    decide

end Record

end WireSchema
