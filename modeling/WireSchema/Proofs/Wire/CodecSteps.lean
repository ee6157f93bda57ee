import WireSchema.Proofs.Wire.RecordAccess
import WireSchema.Proofs.Wire.RecordRoundTrip

/-!
# Codecs of records, step by step

A codec of a record can be written down as a list of steps, each of which moves one member of the
record by one primitive: a scalar at its width, or a text behind its count.

**Theorem (`encode_codecSteps`).** The bytes of a record are its header and what the steps of its
descriptor write, one after the other.

**Theorem (`decode_codecSteps`).** Decoding reads a header and then what the steps read, and fails
where they do. The members of the decoded record hold what their steps have read.

The steps are those of the scalar fields in the order of declaration, and then those of the text
fields.
-/

namespace WireSchema

open Wire

/-! ## Steps -/

/-- What is moved at once between a record and bytes. -/
inductive Primitive where
  | scalar (type : Scalar)
  | text
deriving Repr, DecidableEq

namespace Primitive

def read : Primitive → Reader Value
  | .scalar type => do return .scalar (← Reader.scalar type)
  | .text => do return .text (← Reader.counted)

/-- The bytes of a value of the right kind. -/
def write? : Primitive → Value → Option (List UInt8)
  | .scalar type, .scalar v => if v.type = type then some v.encode else none
  | .text, .text bytes => some (countedText bytes)
  | _, _ => none

end Primitive

/-- A primitive and the member that it works on. -/
structure CodecStep where
  primitive : Primitive
  member : String
deriving Repr, DecidableEq

/-- The step of a field, unless it is owned. -/
def Field.step? (f : Field) : Option CodecStep :=
  match f.kind with
  | .scalar type => some ⟨.scalar type, f.member⟩
  | .text => some ⟨.text, f.member⟩
  | .owned _ => none

/-- The steps of the scalar fields in the order of declaration, then those of the text fields. -/
def Descriptor.codecSteps (d : Descriptor) : List CodecStep :=
  (d.fields.filter (·.kind.isScalar) ++ d.fields.filter (·.kind == .text)).filterMap Field.step?

namespace Record

def member? (r : Record) (member : String) : Option Value :=
  (r.descriptor.slots.find? (·.member == member)).bind fun s => (r.get s.name).toOption

/-- What a step writes. -/
def written? (r : Record) (step : CodecStep) : Option (List UInt8) :=
  (r.member? step.member).bind step.primitive.write?

end Record

/-! ## Members -/

namespace Descriptor

variable {d : Descriptor}

theorem map_indexed (d : Descriptor) : d.indexed.map Prod.snd = d.fields := by
  rw [indexed, List.map_map]
  exact List.zipIdx_map_fst 0 d.fields

theorem map_fixedFields (d : Descriptor) :
    d.fixedFields.map Prod.snd = d.fields.filter (·.kind.isScalar) := by
  conv_rhs => rw [← map_indexed, List.filter_map]
  rfl

theorem map_textFields (d : Descriptor) :
    d.textFields.map Prod.snd = d.fields.filter (·.kind == .text) := by
  conv_rhs => rw [← map_indexed, List.filter_map]
  rfl

theorem codecSteps_eq (d : Descriptor) :
    d.codecSteps = (d.fixedFields ++ d.textFields).filterMap fun p => p.2.step? := by
  rw [codecSteps, ← map_fixedFields, ← map_textFields, ← List.map_append, List.filterMap_map]
  rfl

/-- The member of a slot finds it. -/
theorem Consistent.find?_member (h : d.Consistent) (hembedded : d.targets.embedded = true) {s : Slot}
    (hs : s ∈ d.slots) : d.slots.find? (·.member == s.member) = some s := by
  cases hfind : d.slots.find? (·.member == s.member) with
  | none =>
    have hno := List.find?_eq_none.1 hfind s hs
    simp at hno
  | some t =>
    have hmember : t.member = s.member := by simpa using List.find?_some hfind
    have ht : t ∈ d.slots := List.mem_of_find?_eq_some hfind
    rw [List.inj_on_of_nodup_map (h.slot_members_nodup hembedded) ht hs hmember]

end Descriptor

namespace Record

variable {r : Record}

section Members

variable (hr : r.Sound) (hc : r.descriptor.Consistent)
  (hembedded : r.descriptor.targets.embedded = true)
include hc hembedded

/-- A member has what its slot holds. -/
theorem member?_of_mem {s : Slot} (hs : s ∈ r.descriptor.slots) {v : Value}
    (hv : r.held s = some v) : r.member? s.member = some v := by
  rw [member?, hc.find?_member hembedded hs, Option.bind_some, get_of_held hc hembedded hs hv]
  rfl

variable {source : Nat} {f : Field} (hf : r.descriptor.fields[source]? = some f)
include hf

include hr in
theorem member?_scalar {type : Scalar} (hkind : f.kind = .scalar type) :
    ∃ v, r.scalar? source = some v ∧ v.type = type ∧ r.member? f.member = some (.scalar v) := by
  obtain ⟨v, hcell, htype⟩ := hr.scalar_cell hf hkind
  have hvalue : r.scalar? source = some v := scalar?_of_cell hcell
  refine ⟨v, hvalue, htype, member?_of_mem hc hembedded (Descriptor.value_mem_slots hf hkind) ?_⟩
  simp only [held, hvalue, Option.map_some]

theorem member?_text (hkind : f.kind = .text) :
    r.member? f.member = some (.text (r.textAt source)) :=
  member?_of_mem hc hembedded (Descriptor.payload_mem_slots hf hkind) rfl

theorem member?_capacity (hkind : f.kind = .text) :
    r.member? (Naming.memberName f.capacityName) =
      some (.scalar (.u32 (r.region source).capacity)) :=
  member?_of_mem hc hembedded (Descriptor.capacity_mem_slots hf hkind) rfl

end Members

/-! ## Encoding -/

/-- Passing along the steps of some fields. -/
theorem map_steps {α : Type} {ps : List (Nat × Field)} {g : CodecStep → α}
    {value : Nat × Field → α} (h : ∀ p ∈ ps, ∃ step, p.2.step? = some step ∧ g step = value p) :
    (ps.filterMap fun p => p.2.step?).map g = ps.map value := by
  induction ps with
  | nil => rfl
  | cons p ps ih =>
    obtain ⟨step, hstep, hvalue⟩ := h p List.mem_cons_self
    have htail := ih fun q hq => h q (List.mem_cons_of_mem _ hq)
    simp only [List.filterMap_cons, hstep, List.map_cons, hvalue, htail]

theorem step?_scalar {f : Field} {type : Scalar} (h : f.kind = .scalar type) :
    f.step? = some ⟨.scalar type, f.member⟩ := by
  rw [Field.step?, h]

theorem step?_text {f : Field} (h : f.kind = .text) : f.step? = some ⟨.text, f.member⟩ := by
  rw [Field.step?, h]

section Steps

variable (hr : r.Sound) (hc : r.descriptor.Consistent)
  (hembedded : r.descriptor.targets.embedded = true)
include hr hc hembedded

theorem written?_scalar {p : Nat × Field} (hp : p ∈ r.descriptor.fixedFields) :
    ∃ step, p.2.step? = some step ∧ r.written? step = some (r.fixedBytes p.1) := by
  obtain ⟨hf, type, hkind⟩ := Descriptor.of_mem_fixedFields hp
  obtain ⟨v, hv, htype, hmember⟩ := member?_scalar hr hc hembedded hf hkind
  refine ⟨_, step?_scalar hkind, ?_⟩
  rw [written?, hmember, Option.bind_some, Primitive.write?, if_pos htype, fixedBytes, hv]

omit hr in
theorem written?_text {p : Nat × Field} (hp : p ∈ r.descriptor.textFields) :
    ∃ step, p.2.step? = some step ∧ r.written? step = some (r.countedBytes p.1) := by
  obtain ⟨hf, hkind⟩ := Descriptor.mem_textFields.1 hp
  refine ⟨_, step?_text hkind, ?_⟩
  rw [written?, member?_text hc hembedded hf hkind]
  rfl

/-- The bytes of a record are its header and what the steps write. -/
theorem encode_codecSteps (hi : r.descriptor.internal = false) :
    ∃ parts : List (List UInt8), r.descriptor.codecSteps.map r.written? = parts.map some ∧
      r.encode = .ok (r.header.encode ++ parts.flatten) := by
  refine ⟨r.descriptor.fixedFields.map (fun p => r.fixedBytes p.1) ++
    r.descriptor.textFields.map (fun p => r.countedBytes p.1), ?_, ?_⟩
  · rw [Descriptor.codecSteps_eq, List.filterMap_append, List.map_append, List.map_append,
      map_steps fun p hp => written?_scalar hr hc hembedded hp,
      map_steps fun p hp => written?_text hc hembedded hp, List.map_map, List.map_map]
    rfl
  · rw [encode, hi, List.flatten_append, ← List.flatMap_def, ← List.flatMap_def, List.append_assoc]
    rfl

/-! ## Decoding -/

theorem member?_of_fixed {p : Nat × Field} (hp : p ∈ r.descriptor.fixedFields) :
    ∃ step, p.2.step? = some step ∧
      r.member? step.member = (r.scalar? p.1).map Value.scalar := by
  obtain ⟨hf, type, hkind⟩ := Descriptor.of_mem_fixedFields hp
  obtain ⟨v, hv, -, hmember⟩ := member?_scalar hr hc hembedded hf hkind
  refine ⟨_, step?_scalar hkind, ?_⟩
  rw [hmember, hv, Option.map_some]

omit hr in
theorem member?_of_text {p : Nat × Field} (hp : p ∈ r.descriptor.textFields) :
    ∃ step, p.2.step? = some step ∧
      r.member? step.member = some (.text (r.textAt p.1)) := by
  obtain ⟨hf, hkind⟩ := Descriptor.mem_textFields.1 hp
  exact ⟨_, step?_text hkind, member?_text hc hembedded hf hkind⟩

end Steps

/-- The members in the order of the steps hold the scalars and then the texts. -/
theorem Sound.map_member? (hr : r.Sound) (hc : r.descriptor.Consistent)
    (hembedded : r.descriptor.targets.embedded = true) :
    r.descriptor.codecSteps.map (fun step => r.member? step.member) =
      (r.scalars.map Value.scalar ++ r.texts.map Value.text).map some := by
  have hscalars : r.descriptor.fixedFields.map (fun p => (r.scalar? p.1).map Value.scalar) =
      (r.scalars.map Value.scalar).map some := by
    have hmap := congrArg (List.map (Option.map Value.scalar)) hr.map_scalar?
    rw [List.map_map, List.map_map] at hmap
    rw [List.map_map]
    exact hmap
  rw [Descriptor.codecSteps_eq, List.filterMap_append, List.map_append, List.map_append,
    map_steps fun p hp => member?_of_fixed hr hc hembedded hp,
    map_steps fun p hp => member?_of_text hc hembedded hp, hscalars, hr.texts_eq]
  simp only [List.map_map, Function.comp_def]

/-- Reading the scalars is reading the steps of the scalar fields. -/
theorem mapM_read_scalars (fields : List Field) :
    ((fields.filter (·.kind.isScalar)).filterMap Field.step?).mapM (·.primitive.read) =
      readFixed fields >>= fun values => pure (values.map Value.scalar) := by
  induction fields with
  | nil => rfl
  | cons f fields ih =>
    unfold readFixed
    cases hkind : f.kind with
    | scalar type =>
      rw [List.filter_cons_of_pos (by rw [hkind]; rfl),
        List.filterMap_cons_some (step?_scalar hkind), List.mapM_cons, ih]
      simp [Primitive.read]
    | text => rw [List.filter_cons_of_neg (by rw [hkind]; decide), ih]
    | owned core => rw [List.filter_cons_of_neg (by rw [hkind]; exact Bool.false_ne_true), ih]

/-- Reading the texts is reading the steps of the text fields. -/
theorem mapM_read_texts (fields : List Field) :
    ((fields.filter (·.kind == .text)).filterMap Field.step?).mapM (·.primitive.read) =
      readTexts fields >>= fun texts => pure (texts.map Value.text) := by
  induction fields with
  | nil => rfl
  | cons f fields ih =>
    unfold readTexts
    cases hkind : f.kind with
    | scalar type => rw [List.filter_cons_of_neg (by rw [hkind]; exact Bool.false_ne_true), ih]
    | text =>
      rw [List.filter_cons_of_pos (by rw [hkind]; rfl),
        List.filterMap_cons_some (step?_text hkind), List.mapM_cons, ih]
      simp [Primitive.read]
    | owned core => rw [List.filter_cons_of_neg (by rw [hkind]; exact Bool.false_ne_true), ih]

/-- A decoded record holds what was read. The texts stand in the buffer behind `front`. -/
theorem contents_cellsOf {fields : List Field} {values : List ScalarValue}
    {texts : List (List UInt8)} {i j k l : Input} (hvalues : readFixed fields i = .ok values j)
    (htexts : readTexts fields k = .ok texts l) (front : List UInt8) :
    (cellsOf front.length fields values texts).filterMap Cell.scalar? = values ∧
      ((cellsOf front.length fields values texts).filterMap Cell.region?).map
        (Buffer.ofBytes (front ++ texts.flatten)).used = texts := by
  induction fields generalizing values texts i j k l front with
  | nil =>
    obtain ⟨rfl, -⟩ := Reader.pure_eq_ok.1 hvalues
    obtain ⟨rfl, -⟩ := Reader.pure_eq_ok.1 htexts
    exact ⟨rfl, rfl⟩
  | cons f fields ih =>
    unfold readFixed at hvalues
    unfold readTexts at htexts
    cases hkind : f.kind with
    | scalar type =>
      rw [hkind] at hvalues htexts
      obtain ⟨v, _, hv, hvalues⟩ := Reader.bind_eq_ok.1 hvalues
      obtain ⟨rest, _, hrest, hvalues⟩ := Reader.bind_eq_ok.1 hvalues
      obtain ⟨rfl, -⟩ := Reader.pure_eq_ok.1 hvalues
      obtain ⟨hscalars, hregions⟩ := ih hrest htexts front
      simp only [cellsOf, hkind, List.filterMap_cons, Cell.scalar?, Cell.region?]
      exact ⟨congrArg (v :: ·) hscalars, hregions⟩
    | text =>
      rw [hkind] at hvalues htexts
      obtain ⟨bytes, _, hbytes, htexts⟩ := Reader.bind_eq_ok.1 htexts
      obtain ⟨rest, _, hrest, htexts⟩ := Reader.bind_eq_ok.1 htexts
      obtain ⟨rfl, -⟩ := Reader.pure_eq_ok.1 htexts
      have hcount : (UInt32.ofNat bytes.length).toNat = bytes.length := by
        rw [UInt32.toNat_ofNat', Nat.mod_eq_of_lt (Reader.length_of_counted hbytes)]
      -- The next text lies behind this one, so the bytes in front grow by it.
      obtain ⟨hscalars, hregions⟩ := ih hvalues hrest (front ++ bytes)
      rw [List.length_append] at hscalars hregions
      simp only [cellsOf, hkind, List.filterMap_cons, Cell.scalar?, Cell.region?, List.map_cons,
        List.flatten_cons]
      refine ⟨hscalars, ?_⟩
      rw [Buffer.used]
      simp only [hcount, Nat.min_self]
      rw [← List.append_assoc, Buffer.slice_ofBytes, hregions]
    | owned core =>
      rw [hkind] at hvalues htexts
      simp only [cellsOf, hkind, List.filterMap_cons, Cell.scalar?, Cell.region?]
      exact ih hvalues htexts front

end Record

/-- Reads a header and then what the steps of a descriptor read. -/
def Descriptor.readSteps (d : Descriptor) (typeId : UInt32) : Reader (Header × List Value) := do
  let header ← d.readHeader typeId
  let values ← d.codecSteps.mapM (·.primitive.read)
  return (header, values)

theorem Descriptor.readSteps_eq (d : Descriptor) (typeId : UInt32) :
    d.readSteps typeId = (do
      let header ← d.readHeader typeId
      let values ← Record.readFixed d.fields
      let texts ← Record.readTexts d.fields
      return (header, values.map Value.scalar ++ texts.map Value.text)) := by
  unfold readSteps codecSteps
  rw [List.filterMap_append, List.mapM_append, Record.mapM_read_scalars, Record.mapM_read_texts]
  simp only [bind_assoc, pure_bind]

namespace Record

/-- The members of a record made from what was read hold it in the order of the steps. -/
theorem map_member?_of_read {d : Descriptor} (hc : d.Consistent)
    (hembedded : d.targets.embedded = true) (header : Header) {values : List ScalarValue}
    {texts : List (List UInt8)} {i j k l : Input} (hvalues : readFixed d.fields i = .ok values j)
    (htexts : readTexts d.fields k = .ok texts l) :
    d.codecSteps.map (fun step => (Record.mk d header (cellsOf 0 d.fields values texts)
      (.ofBytes texts.flatten)).member? step.member) =
        (values.map Value.scalar ++ texts.map Value.text).map some := by
  have hlaid := laidOut_cellsOf 0 hvalues htexts
  rw [Nat.zero_add] at hlaid
  have hsound : (Record.mk d header (cellsOf 0 d.fields values texts)
    (.ofBytes texts.flatten)).Sound := hlaid
  have hscalars : (cellsOf 0 d.fields values texts).filterMap Cell.scalar? = values :=
    (contents_cellsOf hvalues htexts []).1
  have hregions : ((cellsOf 0 d.fields values texts).filterMap Cell.region?).map
      (Buffer.ofBytes texts.flatten).used = texts := (contents_cellsOf hvalues htexts []).2
  have hmembers := hsound.map_member? hc hembedded
  rw [scalars, Record.texts, hscalars, hregions] at hmembers
  exact hmembers

/-- Decoding is reading a header and the steps into their members. -/
theorem decode_codecSteps {d : Descriptor} (hc : d.Consistent)
    (hembedded : d.targets.embedded = true) (typeId : UInt32) (bytes : List UInt8) :
    (decode d typeId bytes).map
        (fun s => (s.header, d.codecSteps.map fun step => s.member? step.member)) =
      ((d.readSteps typeId).parse bytes).map fun p => (p.1, p.2.map some) := by
  rw [decode, Descriptor.readSteps_eq, read, Reader.parse, Reader.parse]
  simp only [bind, EStateM.bind]
  -- Both sides fail where one of the three reads does.
  cases d.readHeader typeId (Input.ofBytes bytes) with
  | error e j => rfl
  | ok header i =>
    dsimp only
    cases hvalues : readFixed d.fields i with
    | error e j => rfl
    | ok values j =>
      dsimp only
      cases htexts : readTexts d.fields j with
      | error e k => rfl
      | ok texts k =>
        have hmembers := map_member?_of_read hc hembedded header hvalues htexts
        simp only [pure, EStateM.pure, Except.map, hmembers]

end Record

end WireSchema
