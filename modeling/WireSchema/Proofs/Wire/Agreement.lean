import WireSchema.Proofs.Wire.MessageRoundTrip
import WireSchema.Proofs.Wire.RecordAccess
import WireSchema.Proofs.Wire.RecordRoundTrip

/-!
# The two wire forms of a message

A message that both sides know is written by each side in its own way: the host streams the values
in the order of declaration, a record writes its scalars first and then each text behind its length.

**Theorem (`encodings_agree`).** Take a message and a record of one declaration for both sides, with
the same header and the same fields. If no field is a text, both have the same bytes, and each side
decodes the bytes of the other. If there is a text, it is the only one and the last field, and the
bytes of the record are those of the message with the length of the text inserted in front of it.

A declaration for both sides has no owned field, and no text before the last field. So the scalars
come first on the host side as well: the values of the message are the scalars of the record and
then its texts (`SameContents.values_eq`).
-/

namespace WireSchema

open Wire

/-! ## Fields by name -/

namespace Record

variable {r : Record} {source : Nat} {f : Field}

theorem get_name_scalar (hd : r.descriptor.Consistent)
    (hembedded : r.descriptor.targets.embedded = true)
    (hf : r.descriptor.fields[source]? = some f) {type : Scalar} (hkind : f.kind = .scalar type)
    {v : ScalarValue} (hv : r.scalar? source = some v) : r.get f.name = .ok (.scalar v) := by
  refine get_of_held hd hembedded (Descriptor.value_mem_slots hf hkind) ?_
  simp only [held, hv, Option.map_some]

theorem get_name_text (hd : r.descriptor.Consistent)
    (hembedded : r.descriptor.targets.embedded = true)
    (hf : r.descriptor.fields[source]? = some f) (hkind : f.kind = .text) :
    r.get f.name = .ok (.text (r.textAt source)) :=
  get_of_held hd hembedded (Descriptor.payload_mem_slots hf hkind) rfl

end Record

/-- The name of a field finds its value. -/
theorem Message.get_name {m : Message} (hd : (m.descriptor.fields.map Field.name).Nodup)
    {source : Nat} {f : Field} (hf : m.descriptor.fields[source]? = some f) {v : Value}
    (hv : m.values[source]? = some v) : m.get f.name = .ok v := by
  rw [get, field, Descriptor.field?_name hd hf]
  simp only [Outcome.ok_bind, hv]
  rfl

/-! ## Values along the fields -/

/-- What a cell holds as a value of a message. -/
def Cell.value? (b : Buffer) : Cell → Option Value
  | .scalar v => some (.scalar v)
  | .text a => some (.text (b.used a))
  | .absent => none

/-- If only the last field may be a text, the values are all the scalars and then the texts. -/
theorem LaidOut.values_eq {start stop : Nat} {fields : List Field} {cells : List Cell}
    (h : LaidOut start fields cells stop) (b : Buffer)
    (hlast : ∀ f ∈ fields.dropLast, f.kind.streamDelimited = false) {values : List Value}
    (hvalues : values.map some = cells.map (Cell.value? b)) :
    values = (cells.filterMap Cell.scalar?).map Value.scalar ++
      ((cells.filterMap Cell.region?).map b.used).map Value.text := by
  induction h generalizing values with
  | nil => simpa using hvalues
  | @cons _ _ f fields c cells hsuits _ hrest ih =>
    cases values with
    | nil => cases hvalues
    | cons v values =>
      rw [List.map_cons, List.map_cons, List.cons.injEq] at hvalues
      obtain ⟨hv, hvalues⟩ := hvalues
      cases fields with
      | nil =>
        cases hrest
        obtain rfl : values = [] := by simpa using hvalues
        cases c <;> cases hv <;> rfl
      | cons g fields =>
        rw [List.dropLast_cons_cons] at hlast
        have hf := hlast f List.mem_cons_self
        have htail := ih (fun g hg => hlast g (List.mem_cons_of_mem _ hg)) hvalues
        cases c with
        | scalar s =>
          cases hv
          rw [htail]
          rfl
        | text a =>
          -- A text that another field follows.
          rw [hsuits.1] at hf
          cases hf
        | absent => cases hv

theorem flatMap_streamed (scalars : List ScalarValue) (texts : List (List UInt8)) :
    (scalars.map Value.scalar ++ texts.map Value.text).flatMap Value.streamed =
      scalars.flatMap ScalarValue.encode ++ texts.flatten := by
  rw [List.flatMap_append, List.flatMap_map, List.flatMap_map]
  exact congrArg _ List.flatMap_id'

/-! ## Where the text is -/

namespace Descriptor

variable {d : Descriptor} {f : Field}

/-- On the host a text is the last field and the only text. -/
theorem Consistent.last_text (h : d.Consistent) (hhost : d.targets.host = true)
    (hf : f ∈ d.fields) (hkind : f.kind = .text) :
    ∃ front, d.fields = front ++ [f] ∧ ∀ g ∈ front, g.kind ≠ .text := by
  have hfront : ∀ g ∈ d.fields.dropLast, g.kind ≠ .text := by
    intro g hg htext
    have hdelimited := h.host hhost g hg
    rw [htext] at hdelimited
    cases hdelimited
  have hsplit := List.dropLast_append_getLast (List.ne_nil_of_mem hf)
  refine ⟨d.fields.dropLast, ?_, hfront⟩
  rw [← hsplit, List.mem_append, List.mem_singleton] at hf
  rcases hf with hf | hf
  · exact absurd hkind (hfront f hf)
  · rw [hf, hsplit]

theorem textFields_eq_nil (h : ∀ f ∈ d.fields, f.kind ≠ .text) : d.textFields = [] := by
  refine List.eq_nil_iff_forall_not_mem.2 fun p hp => ?_
  obtain ⟨hf, hkind⟩ := mem_textFields.1 hp
  exact h p.2 (List.mem_of_getElem? hf) hkind

theorem textFields_of_last {front : List Field} (hfields : d.fields = front ++ [f])
    (hfront : ∀ g ∈ front, g.kind ≠ .text) (hkind : f.kind = .text) :
    d.textFields = [(front.length, f)] := by
  have hnone : ((front.zipIdx.map fun p => (p.2, p.1)).filter (·.2.kind == .text)) = [] := by
    refine List.filter_eq_nil_iff.2 fun p hp htext => ?_
    obtain ⟨q, hq, rfl⟩ := List.mem_map.1 hp
    exact hfront q.1 (List.fst_mem_of_mem_zipIdx hq) (beq_iff_eq.1 htext)
  rw [textFields, indexed, hfields, List.zipIdx_append, List.map_append, List.filter_append, hnone]
  simp [hkind]

end Descriptor

/-! ## Fields of the packed record -/

namespace Record

variable {r : Record}

/-- Packing a record changes no field. -/
theorem Sound.get_packed (hr : r.Sound) (hd : r.descriptor.Consistent)
    (hembedded : r.descriptor.targets.embedded = true) {f : Field}
    (hf : f ∈ r.descriptor.fields) : r.packed.get f.name = r.get f.name := by
  have howned := hd.embedded hembedded f hf
  obtain ⟨source, hf⟩ := List.getElem?_of_mem hf
  cases hkind : f.kind with
  | scalar type =>
    obtain ⟨v, hc, -⟩ := hr.scalar_cell hf hkind
    rw [get_name_scalar hd hembedded hf hkind (scalar?_of_cell hc)]
    exact get_name_scalar (r := r.packed) hd hembedded hf hkind (hr.packed_scalar hc)
  | text =>
    obtain ⟨htext, -⟩ := hr.packed_text (hr.text_cell hf hkind).1
    rw [get_name_text (r := r.packed) hd hembedded hf hkind, htext,
      get_name_text hd hembedded hf hkind]
    rfl
  | owned core =>
    rw [hkind] at howned
    cases howned

end Record

/-! ## The same contents in both forms -/

/-- A message and a record of one descriptor that hold the same. -/
structure SameContents (m : Message) (r : Record) : Prop where
  descriptor : m.descriptor = r.descriptor
  header : m.header = r.header
  fields : ∀ f ∈ r.descriptor.fields, m.get f.name = r.get f.name
  fitting : Message.Fitting r.descriptor.fields m.values
  sound : r.Sound

namespace SameContents

variable {m : Message} {r : Record} (h : SameContents m r) (hd : r.descriptor.Consistent)
  (hembedded : r.descriptor.targets.embedded = true)
include h hd hembedded

/-- Fields that are equal by name are equal one by one. -/
theorem map_some_values : m.values.map some = r.cells.map (Cell.value? r.buffer) := by
  have hlength := List.Forall₂.length_eq h.fitting
  apply List.ext_getElem?
  intro source
  rw [List.getElem?_map, List.getElem?_map]
  cases hf : r.descriptor.fields[source]? with
  | none =>
    have hle := List.getElem?_eq_none_iff.1 hf
    have hcells := LaidOut.length_eq h.sound
    rw [List.getElem?_eq_none (by omega), List.getElem?_eq_none (by omega)]
    rfl
  | some f =>
    obtain ⟨hlt, -⟩ := List.getElem?_eq_some_iff.1 hf
    obtain ⟨v, hv⟩ : ∃ v, m.values[source]? = some v :=
      ⟨_, List.getElem?_eq_getElem (by omega)⟩
    obtain ⟨c, hc, hsuits⟩ := LaidOut.cell h.sound hf
    have hmem := List.mem_of_getElem? hf
    -- The field is read by its name on both sides, which gives the value here and the cell there.
    have hget := h.fields f hmem
    rw [m.get_name (by rw [h.descriptor]; exact hd.names_nodup) (by rwa [h.descriptor]) hv] at hget
    rw [hv, hc]
    cases c with
    | scalar s =>
      rw [Record.get_name_scalar hd hembedded hf hsuits (Record.scalar?_of_cell hc)] at hget
      cases hget
      rfl
    | text a =>
      rw [Record.get_name_text hd hembedded hf hsuits.1, Record.textAt,
        Record.region_of_cell hc] at hget
      cases hget
      rfl
    | absent => cases (hd.embedded hembedded f hmem).symm.trans hsuits

variable (hhost : r.descriptor.targets.host = true)
include hhost

theorem values_eq : m.values = r.scalars.map Value.scalar ++ r.texts.map Value.text :=
  LaidOut.values_eq h.sound r.buffer (hd.host hhost) (h.map_some_values hd hembedded)

/-- The bytes of the message by the contents of the record. -/
theorem bytes_eq : m.header.encode ++ m.values.flatMap Value.streamed =
    r.header.encode ++ r.scalars.flatMap ScalarValue.encode ++ r.texts.flatten := by
  rw [h.values_eq hd hembedded hhost, flatMap_streamed, h.header, List.append_assoc]

variable (hi : r.descriptor.internal = false)
include hi

theorem encode_eq : m.encode =
    .ok (r.header.encode ++ r.scalars.flatMap ScalarValue.encode ++ r.texts.flatten) := by
  rw [← h.bytes_eq hd hembedded hhost]
  simp [Message.encode, h.descriptor, hi]

theorem decode_eq : Message.decode r.descriptor r.header.typeId
    (r.header.encode ++ r.scalars.flatMap ScalarValue.encode ++ r.texts.flatten) = .ok m := by
  rw [← h.bytes_eq hd hembedded hhost, ← h.header]
  apply Reader.ReadsAll.parse
  refine (Descriptor.reads_header hi m.header).bindAll ?_
  have hread := (h.fitting.readsAll (hd.host hhost)).map fun values =>
    Message.mk r.descriptor m.header values
  rwa [← h.descriptor] at hread ⊢

end SameContents

/-! ## Agreement -/

/-- **The two wire forms agree.** Take a message and a record of one declaration for both sides,
with the same header and the same fields. Without a text they have the same bytes, and each side
decodes them to what it holds itself. A text is the last field and the only text, and there the
record has four bytes more: the length of the text, right before the text. -/
theorem encodings_agree {config : Config} {interface : Interface} {location : Location}
    {declaration : String} {d : Descriptor}
    (hbuild : Descriptor.build config interface location declaration = .ok d)
    (hhost : interface.targets.host = true) (hembedded : interface.targets.embedded = true)
    (hi : d.internal = false) {m : Message} {r : Record} (hm : Message.Reachable d m)
    (hr : Record.Reachable d r) (hheader : m.header = r.header)
    (hfields : ∀ f ∈ d.fields, m.get f.name = r.get f.name) :
    ((∀ f ∈ d.fields, f.kind ≠ .text) → ∃ bytes s, m.encode = .ok bytes ∧ r.encode = .ok bytes ∧
      Message.decode d r.header.typeId bytes = .ok m ∧
      Record.decode d m.header.typeId bytes = .ok s ∧ s.header = m.header ∧
        ∀ f ∈ d.fields, s.get f.name = m.get f.name) ∧
    ∀ f ∈ d.fields, f.kind = .text → ∃ front, d.fields = front ++ [f] ∧
      (∀ g ∈ front, g.kind ≠ .text) ∧ ∃ start text, m.get f.name = .ok (.text text) ∧
        text.length < 2 ^ 32 ∧ m.encode = .ok (start ++ text) ∧
        r.encode = .ok (start ++ bigEndian 4 text.length ++ text) := by
  obtain ⟨hsound, rfl⟩ := hr.sound
  obtain ⟨hdescriptor, hfitting⟩ := hm.fitting
  obtain ⟨hd, htargets⟩ := Descriptor.consistent_of_build hbuild
  rw [← htargets] at hhost hembedded
  have hsame : SameContents m r := ⟨hdescriptor, hheader, hfields, hfitting, hsound⟩
  -- Both encoders write the header and the scalars; they differ in the counts before the texts.
  have hmessage := hsame.encode_eq hd hembedded hhost hi
  have hrecord := hsound.encode_eq hi
  constructor
  · intro hnone
    have htexts : r.texts = [] := by
      rw [hsound.texts_eq, Descriptor.textFields_eq_nil hnone]
      rfl
    have hdecode := hsame.decode_eq hd hembedded hhost hi
    have hparse := (hsound.reads_packed hi).all.parse
    rw [htexts] at hmessage hrecord hdecode hparse
    refine ⟨_, r.packed, hmessage, hrecord, hdecode, ?_, hheader.symm, fun f hf => ?_⟩
    · rwa [hheader]
    · rw [hsound.get_packed hd hembedded hf, hfields f hf]
  · intro f hf hkind
    obtain ⟨front, hsplit, hfront⟩ := hd.last_text hhost hf hkind
    have htexts : r.texts = [r.textAt front.length] := by
      rw [hsound.texts_eq, Descriptor.textFields_of_last hsplit hfront hkind]
      rfl
    have hsource : r.descriptor.fields[front.length]? = some f := by simp [hsplit]
    rw [htexts] at hmessage hrecord
    refine ⟨front, hsplit, hfront, r.header.encode ++ r.scalars.flatMap ScalarValue.encode,
      r.textAt front.length, ?_, r.buffer.length_used_lt (r.region front.length), ?_, ?_⟩
    · rw [hfields f hf, Record.get_name_text hd hembedded hsource hkind]
    · rw [hmessage, List.flatten_singleton]
    · rw [hrecord, List.flatMap_singleton, countedText, ← List.append_assoc]
      rfl

/-- A message for both sides, a number and a text. -/
def Descriptor.shared : Descriptor :=
  { name := "M"
    interface := "F"
    targets := ⟨true, true⟩
    fields := [⟨"b", "int16_t", .scalar .i16⟩, ⟨"c", "std::string", .text⟩]
    includes := []
    internal := false
    location := ⟨"m", 2⟩ }

/-- The same without the text. -/
def Descriptor.plain : Descriptor := { shared with fields := shared.fields.dropLast }

/-- A message and a record whose text does not fill its region, and the same without a text. -/
theorem encodings_agree_shared :
    (∃ m r start, Message.Reachable .shared m ∧ Record.Reachable .shared r ∧
      m.get "c" = .ok (.text [65, 66]) ∧ m.encode = .ok (start ++ [65, 66]) ∧
      r.encode = .ok (start ++ [0, 0, 0, 2] ++ [65, 66])) ∧
    ∃ m r bytes, Message.Reachable .plain m ∧ Record.Reachable .plain r ∧
      m.encode = .ok bytes ∧ r.encode = .ok bytes ∧ Message.decode .plain 7 bytes = .ok m := by
  constructor
  · have hbuild : Descriptor.build {} (.empty "F" ⟨true, true⟩ ⟨"m", 1⟩) ⟨"m", 2⟩
        "M --member int16_t b --member std::string c" = .ok .shared :=
      Outcome.of_toOption (by decide +kernel)
    have hm : Message.create .shared ⟨7, 256, 0, 3⟩ [.scalar (.i16 (-2)), .text [65, 66]] =
        .ok ⟨.shared, ⟨7, 256, 0, 3⟩, [.scalar (.i16 (-2)), .text [65, 66]]⟩ := rfl
    have hr : Record.create .shared ⟨7, 256, 0, 3⟩ [.scalar (.i16 (-2)), .scalar (.u32 4)] =
        .ok ⟨.shared, ⟨7, 256, 0, 3⟩, [.scalar (.i16 (-2)), .text ⟨0, 0, 4⟩], .zeroed 4⟩ := rfl
    have hm := Message.Reachable.create hm
    have hr := Record.Reachable.edit (.setText "c" [65, 66]) (.create hr)
    obtain ⟨-, hlast⟩ := encodings_agree hbuild rfl rfl rfl hm hr rfl (by decide)
    obtain ⟨_, -, -, start, text, hget, -, hbytes⟩ :=
      hlast ⟨"c", "std::string", .text⟩ (by decide) rfl
    cases hget
    exact ⟨_, _, start, hm, hr, rfl, hbytes⟩
  · have hbuild : Descriptor.build {} (.empty "F" ⟨true, true⟩ ⟨"m", 1⟩) ⟨"m", 2⟩
        "M --member int16_t b" = .ok .plain :=
      Outcome.of_toOption (by decide +kernel)
    have hm := Message.Reachable.edit (.set "b" (.scalar (.i16 (-2))))
      (.initial (d := .plain) ⟨7, 256, 0, 3⟩)
    have hr : Record.create .plain ⟨7, 256, 0, 3⟩ [.scalar (.i16 (-2))] =
        .ok ⟨.plain, ⟨7, 256, 0, 3⟩, [.scalar (.i16 (-2))], .zeroed 0⟩ := rfl
    have hr := Record.Reachable.create hr
    obtain ⟨hplain, -⟩ := encodings_agree hbuild rfl rfl rfl hm hr rfl (by decide)
    obtain ⟨bytes, _, hencode, hrecord, hdecode, -⟩ := hplain (by decide)
    exact ⟨_, _, bytes, hm, hr, hencode, hrecord, hdecode⟩

end WireSchema
