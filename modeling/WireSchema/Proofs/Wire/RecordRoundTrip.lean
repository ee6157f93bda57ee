import WireSchema.Proofs.Wire.RecordLayout

/-!
# Records and their bytes

On the wire a record is its header, then its scalars, then its texts behind their counts. In memory
the cells follow the declaration, and a text is a part of the shared buffer that may be shorter than
its region.

**Theorem (`decode_encode_record`).** Encoding a record never fails, and decoding the bytes gives a
record with the same header, the same scalars and the same texts, in which each text has a region of
exactly its own length.

A sound record has the form `header ++ scalars ++ counted texts` (`Sound.encode_eq`), and along its
fields the reader takes exactly these (`LaidOut.reads_fixed`, `LaidOut.reads_texts`). What comes out
is `Record.packed`, the record with the same contents and its texts moved together
(`Sound.reads_packed`). It remains to compare the two records cell by cell (`LaidOut.packed_cell`).
-/

namespace WireSchema

open Wire

/-! ## The contents of a record -/

def Cell.scalar? : Cell → Option ScalarValue
  | .scalar v => some v
  | _ => none

/-- The bytes in use of a region. -/
def Wire.Buffer.used (b : Buffer) (a : Region) : List UInt8 :=
  b.slice a.offset (min a.length.toNat a.capacity.toNat)

def countedText (bytes : List UInt8) : List UInt8 :=
  bigEndian Record.countWidth bytes.length ++ bytes

theorem Wire.Buffer.length_used_lt (b : Buffer) (a : Region) : (b.used a).length < 2 ^ 32 := by
  rw [used, length_slice]
  exact Nat.lt_of_le_of_lt (Nat.min_le_left ..) a.length.toNat_lt

namespace Record

/-- The scalars in declaration order. -/
def scalars (r : Record) : List ScalarValue := r.cells.filterMap Cell.scalar?

/-- The texts in declaration order. -/
def texts (r : Record) : List (List UInt8) :=
  (r.cells.filterMap Cell.region?).map r.buffer.used

/-- The record with the same contents in which every text fills its region. -/
def packed (r : Record) : Record :=
  ⟨r.descriptor, r.header, cellsOf 0 r.descriptor.fields r.scalars r.texts,
    .ofBytes r.texts.flatten⟩

theorem Sound.flatMap_fixedBytes {r : Record} (hr : r.Sound) :
    r.descriptor.fixedFields.flatMap (fun p => r.fixedBytes p.1) =
      r.scalars.flatMap ScalarValue.encode := by
  rw [scalars, List.filterMap_eq_flatMap_toList, List.flatMap_assoc]
  apply flatMap_zipIdx 0 (fun f => f.kind.isScalar) r.fixedBytes
    (fun c => c.scalar?.toList.flatMap ScalarValue.encode) (LaidOut.length_eq hr)
  intro source f c hf hc
  obtain ⟨c', hc', hsuits⟩ := LaidOut.cell hr hf
  rw [hc] at hc'
  cases hc'
  rw [Nat.zero_add, fixedBytes, scalar?, hc]
  cases c with
  | scalar v =>
    have hkind : f.kind = .scalar v.type := hsuits
    simp [hkind, FieldKind.isScalar, Cell.scalar?]
  | text region => simp [Cell.scalar?]
  | absent => simp [Cell.scalar?]

/-- The scalars by the indices of the scalar fields are the scalars in the cells. -/
theorem Sound.map_scalar? {r : Record} (hr : r.Sound) :
    r.descriptor.fixedFields.map (fun p => r.scalar? p.1) = r.scalars.map some := by
  rw [List.map_eq_flatMap, scalars, List.map_filterMap, List.filterMap_eq_flatMap_toList]
  apply flatMap_zipIdx 0 (fun f => f.kind.isScalar) (fun source => [r.scalar? source])
    (fun c => (c.scalar?.map some).toList) (LaidOut.length_eq hr)
  intro source f c hf hc
  obtain ⟨c', hc', hsuits⟩ := LaidOut.cell hr hf
  rw [hc] at hc'
  cases hc'
  rw [Nat.zero_add, scalar?, hc]
  cases c with
  | scalar v =>
    have hkind : f.kind = .scalar v.type := hsuits
    simp [hkind, FieldKind.isScalar, Cell.scalar?]
  | text region =>
    have hkind : f.kind = .text := hsuits.1
    simp [hkind, FieldKind.isScalar, Cell.scalar?]
  | absent =>
    cases hkind : f.kind with
    | owned core => simp [FieldKind.isScalar, Cell.scalar?]
    | _ => simp [Cell.Suits, hkind, FieldKind.isOwned] at hsuits

theorem Sound.texts_eq {r : Record} (hr : r.Sound) :
    r.texts = r.descriptor.textFields.map fun p => r.textAt p.1 := by
  rw [texts, ← hr.map_region, List.map_map]
  rfl

theorem Sound.flatMap_countedBytes {r : Record} (hr : r.Sound) :
    r.descriptor.textFields.flatMap (fun p => r.countedBytes p.1) =
      r.texts.flatMap countedText := by
  rw [hr.texts_eq, List.flatMap_map]
  rfl

/-- The bytes of a record. -/
theorem Sound.encode_eq {r : Record} (hr : r.Sound) (hi : r.descriptor.internal = false) :
    r.encode = .ok (r.header.encode ++ r.scalars.flatMap ScalarValue.encode ++
      r.texts.flatMap countedText) := by
  rw [encode, hi, hr.flatMap_fixedBytes, hr.flatMap_countedBytes]
  rfl

end Record

/-! ## Reading along the fields -/

namespace LaidOut

variable {start stop : Nat} {fields : List Field} {cells : List Cell}

theorem reads_fixed (h : LaidOut start fields cells stop) :
    Reader.Reads (Record.readFixed fields)
      ((cells.filterMap Cell.scalar?).flatMap ScalarValue.encode)
      (cells.filterMap Cell.scalar?) := by
  induction h with
  | nil => exact Reader.reads_pure []
  | @cons _ _ f _ c cells hsuits _ _ ih =>
    unfold Record.readFixed
    cases c with
    | scalar v =>
      have hkind : f.kind = .scalar v.type := hsuits
      rw [hkind]
      exact (Reader.reads_scalar v).bind (ih.map (v :: ·))
    | text region =>
      rw [hsuits.1]
      exact ih
    | absent =>
      cases hkind : f.kind with
      | owned core => exact ih
      | _ => simp [Cell.Suits, hkind, FieldKind.isOwned] at hsuits

theorem reads_texts (h : LaidOut start fields cells stop) (b : Buffer) :
    Reader.Reads (Record.readTexts fields)
      (((cells.filterMap Cell.region?).map b.used).flatMap countedText)
      ((cells.filterMap Cell.region?).map b.used) := by
  induction h with
  | nil => exact Reader.reads_pure []
  | @cons _ _ f _ c cells hsuits _ _ ih =>
    unfold Record.readTexts
    cases c with
    | scalar v =>
      have hkind : f.kind = .scalar v.type := hsuits
      rw [hkind]
      exact ih
    | text region =>
      rw [hsuits.1]
      exact (Reader.reads_counted (b.length_used_lt region)).bind (ih.map (b.used region :: ·))
    | absent =>
      cases hkind : f.kind with
      | owned core => exact ih
      | _ => simp [Cell.Suits, hkind, FieldKind.isOwned] at hsuits

end LaidOut

/-- Reading the bytes of a record gives the packed record, whatever follows the bytes. -/
theorem Record.Sound.reads_packed {r : Record} (hr : r.Sound)
    (hi : r.descriptor.internal = false) :
    Reader.Reads (Record.read r.descriptor r.header.typeId)
      (r.header.encode ++ r.scalars.flatMap ScalarValue.encode ++ r.texts.flatMap countedText)
      r.packed := by
  unfold Record.read
  rw [List.append_assoc]
  refine (Descriptor.reads_header hi r.header).bind ?_
  refine (LaidOut.reads_fixed hr).bind ?_
  exact (LaidOut.reads_texts hr r.buffer).map fun texts => Record.mk r.descriptor r.header
    (Record.cellsOf 0 r.descriptor.fields r.scalars texts) (.ofBytes texts.flatten)

/-! ## The packed record -/

theorem Wire.Buffer.byteAt_ofBytes (bytes : List UInt8) (i : Nat) :
    (Buffer.ofBytes bytes).byteAt i = bytes[i]?.getD 0 := by
  by_cases lt : i < bytes.length <;> simp [ofBytes, byteAt, byteIn, Run.stop, lt]

theorem Wire.Buffer.slice_ofBytes (front bytes back : List UInt8) :
    (Buffer.ofBytes (front ++ bytes ++ back)).slice front.length bytes.length = bytes := by
  apply List.ext_getElem?
  intro i
  rw [getElem?_slice, byteAt_ofBytes]
  by_cases lt : i < bytes.length
  · rw [if_pos lt, List.append_assoc, List.getElem?_append_right (Nat.le_add_right ..),
      Nat.add_sub_cancel_left, List.getElem?_append_left lt]
    simp [lt]
  · rw [if_neg lt, List.getElem?_eq_none (by omega)]

/-- `c'` is what packing makes of the cell `c` of a record with the given texts. Positions count from
`offset`. -/
def Cell.PackedAs (b : Buffer) (offset : Nat) (texts : List (List UInt8)) : Cell → Cell → Prop
  | .text a, c' => ∃ front back, texts = front ++ b.used a :: back ∧
      c' = .text ⟨offset + front.flatten.length, .ofNat (b.used a).length,
        .ofNat (b.used a).length⟩
  | c, c' => c' = c

theorem Cell.PackedAs.behind {b : Buffer} {offset : Nat} {text : List UInt8}
    {texts : List (List UInt8)} {c c' : Cell}
    (h : Cell.PackedAs b (offset + text.length) texts c c') :
    Cell.PackedAs b offset (text :: texts) c c' := by
  cases c with
  | scalar v => exact h
  | absent => exact h
  | text a =>
    obtain ⟨front, back, htexts, hc'⟩ := h
    refine ⟨text :: front, back, by rw [htexts]; rfl, ?_⟩
    rw [hc', List.flatten_cons, List.length_append, Nat.add_assoc]

theorem LaidOut.packed_cell {start stop : Nat} {fields : List Field} {cells : List Cell}
    (h : LaidOut start fields cells stop) (b : Buffer) (offset : Nat) {i : Nat} {c : Cell}
    (hc : cells[i]? = some c) :
    ∃ c', (Record.cellsOf offset fields (cells.filterMap Cell.scalar?)
        ((cells.filterMap Cell.region?).map b.used))[i]? = some c' ∧
      Cell.PackedAs b offset ((cells.filterMap Cell.region?).map b.used) c c' := by
  induction h generalizing offset i with
  | nil => cases hc
  | @cons _ _ f fields head cells hsuits _ _ ih =>
    cases head with
    | scalar v =>
      have hkind : f.kind = .scalar v.type := hsuits
      simp only [List.filterMap_cons, Cell.scalar?, Cell.region?, Record.cellsOf, hkind]
      cases i with
      | zero =>
        cases hc
        exact ⟨_, rfl, rfl⟩
      | succ i => exact ih offset hc
    | text a =>
      have hkind : f.kind = .text := hsuits.1
      simp only [List.filterMap_cons, Cell.scalar?, Cell.region?, List.map_cons, Record.cellsOf,
        hkind]
      cases i with
      | zero =>
        cases hc
        exact ⟨_, rfl, [], _, rfl, rfl⟩
      | succ i =>
        -- The rest is packed behind the used part of this text, not behind its whole region.
        obtain ⟨c', hget, hpacked⟩ := ih (offset + (b.used a).length) hc
        exact ⟨c', hget, hpacked.behind⟩
    | absent =>
      obtain ⟨core, hkind⟩ : ∃ core, f.kind = .owned core := by
        cases hkind : f.kind with
        | owned core => exact ⟨core, rfl⟩
        | _ => simp [Cell.Suits, hkind, FieldKind.isOwned] at hsuits
      simp only [List.filterMap_cons, Cell.scalar?, Cell.region?, Record.cellsOf, hkind]
      cases i with
      | zero =>
        cases hc
        exact ⟨_, rfl, rfl⟩
      | succ i => exact ih offset hc

namespace Record

theorem Sound.packed_scalar {r : Record} (hr : r.Sound) {source : Nat} {v : ScalarValue}
    (h : r.cells[source]? = some (.scalar v)) : r.packed.scalar? source = some v := by
  obtain ⟨c', hget, rfl⟩ := LaidOut.packed_cell hr r.buffer 0 h
  exact scalar?_of_cell hget

theorem Sound.packed_text {r : Record} (hr : r.Sound) {source : Nat} {a : Region}
    (h : r.cells[source]? = some (.text a)) :
    r.packed.textAt source = r.buffer.used a ∧
      (r.packed.region source).length.toNat = (r.buffer.used a).length ∧
      (r.packed.region source).capacity.toNat = (r.buffer.used a).length := by
  obtain ⟨c', hget, front, back, htexts, rfl⟩ := LaidOut.packed_cell hr r.buffer 0 h
  have hregion : r.packed.region source = ⟨0 + front.flatten.length,
      .ofNat (r.buffer.used a).length, .ofNat (r.buffer.used a).length⟩ :=
    region_of_cell hget
  have hcount : (UInt32.ofNat (r.buffer.used a).length).toNat = (r.buffer.used a).length := by
    rw [UInt32.toNat_ofNat', Nat.mod_eq_of_lt (r.buffer.length_used_lt a)]
  have hflat : r.texts.flatten = front.flatten ++ r.buffer.used a ++ back.flatten := by
    rw [texts, htexts]
    simp
  rw [textAt, hregion]
  refine ⟨?_, hcount, hcount⟩
  simp only [hcount, Nat.min_self, Nat.zero_add]
  show (Buffer.ofBytes r.texts.flatten).slice _ _ = _
  rw [hflat, Buffer.slice_ofBytes]

/-! ## The round trip -/

/-- The name of a text field finds its bytes when no two fields have one name. -/
theorem text_name {r : Record} (hd : (r.descriptor.fields.map Field.name).Nodup)
    {p : Nat × Field} (hp : p ∈ r.descriptor.textFields) :
    r.text p.2.name = .ok (r.textAt p.1) := by
  obtain ⟨hf, hkind⟩ := Descriptor.mem_textFields.1 hp
  rw [text, textSource_name hd hf hkind]
  rfl

/-- **Records survive the wire.** Whatever was done to a record, it can be encoded, and decoding the
bytes gives back its header, its scalars and its texts. The regions of the new record are exactly as
long as their texts. -/
theorem decode_encode_record {config : Config} {interface : Interface} {location : Location}
    {declaration : String} {d : Descriptor}
    (hbuild : Descriptor.build config interface location declaration = .ok d)
    (hi : d.internal = false) {r : Record} (hr : Reachable d r) {typeId : UInt32}
    (ht : r.header.typeId = typeId) :
    ∃ bytes s, r.encode = .ok bytes ∧ decode d typeId bytes = .ok s ∧ s.header = r.header ∧
      (∀ p ∈ d.fixedFields, ∃ v, r.scalar? p.1 = some v ∧ s.scalar? p.1 = some v) ∧
      (∀ p ∈ d.textFields, ∃ content,
        r.text p.2.name = .ok content ∧ s.text p.2.name = .ok content ∧
          (s.region p.1).length.toNat = content.length ∧
          (s.region p.1).capacity.toNat = content.length) := by
  obtain ⟨hsound, rfl⟩ := hr.sound
  have hnames := (Descriptor.consistent_of_build hbuild).1.names_nodup
  have hdecode := (hsound.reads_packed hi).all.parse
  rw [ht] at hdecode
  refine ⟨_, r.packed, hsound.encode_eq hi, hdecode, rfl, fun p hp => ?_, fun p hp => ?_⟩
  · obtain ⟨hf, type, hkind⟩ := Descriptor.of_mem_fixedFields hp
    obtain ⟨v, hc, -⟩ := hsound.scalar_cell hf hkind
    exact ⟨v, by rw [scalar?, hc], hsound.packed_scalar hc⟩
  · obtain ⟨hf, hkind⟩ := Descriptor.mem_textFields.1 hp
    obtain ⟨htext, hlength, hcapacity⟩ := hsound.packed_text (hsound.text_cell hf hkind).1
    refine ⟨r.textAt p.1, text_name hnames hp, ?_, hlength, hcapacity⟩
    rw [text_name (r := r.packed) hnames hp, htext]
    rfl

theorem decode_encode_mixed : ∃ bytes s, mixed.encode = .ok bytes ∧
    decode Descriptor.mixed 7 bytes = .ok s ∧ s.header = ⟨7, 256, 9, 3⟩ ∧
    s.scalar? 1 = some (.i16 (-2)) ∧ s.text "a" = .ok [65, 66] ∧
    (s.region 0).capacity.toNat = 2 := by
  obtain ⟨bytes, s, hbytes, hs, hheader, hscalars, htexts⟩ :=
    decode_encode_record Descriptor.build_mixed rfl reachable_mixed rfl
  obtain ⟨v, hv, hsv⟩ := hscalars (1, ⟨"b", "int16_t", .scalar .i16⟩) (by decide)
  obtain ⟨content, hcontent, hstext, -, hcapacity⟩ :=
    htexts (0, ⟨"a", "std::string", .text⟩) (by decide)
  cases hv
  cases hcontent
  exact ⟨bytes, s, hbytes, hs, hheader, hsv, hstext, hcapacity⟩

end Record

end WireSchema
