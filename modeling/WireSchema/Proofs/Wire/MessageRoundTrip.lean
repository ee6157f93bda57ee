import Mathlib.Data.List.Forall2
import WireSchema.Proofs.Schema.Build
import WireSchema.Proofs.Wire.Reading
import WireSchema.Wire.Message

/-!
# Host messages and their bytes

The host stream has no lengths: a text, an owned text or a foreign object is read up to the end of
the message. Such a field can be read back only if nothing follows it, and nothing does follow it
because declarations for the host that say otherwise are refused.

**Theorem (`decode_encode_message`).** Every host message of an accepted declaration can be encoded,
and decoding the bytes gives exactly the same message.

The invariant is that every value fits its field (`Message.Fitting`). It holds for messages that
were created, filled with initial values or decoded, and setting a field keeps it, because all of
these check or produce values by the kind of the field (`Value.Fits`). Given that, a field that is
not delimited by the end of the stream reads back in front of anything (`reads_value`), and any
field reads back at the end (`readsAll_value`).
-/

namespace WireSchema

open Wire

/-! ## Values and kinds -/

/-- The values that a field of a kind holds. -/
inductive Value.Fits : FieldKind → Value → Prop
  | scalar (v : ScalarValue) : Fits (.scalar v.type) (.scalar v)
  | text (bytes : List UInt8) : Fits .text (.text bytes)
  | ownedScalar (v : ScalarValue) : Fits (.owned (.scalar v.type)) (.owned (.scalar v))
  | ownedText (bytes : List UInt8) : Fits (.owned .text) (.owned (.text bytes))
  | foreign (path : String) (bytes : List UInt8) : Fits (.owned (.foreign path)) (.foreign bytes)

theorem Value.scalarType?_eq_some {v : Value} {type : Scalar} (h : v.scalarType? = some type) :
    ∃ s, v = .scalar s ∧ s.type = type := by
  cases v with
  | scalar s =>
    cases h
    exact ⟨s, rfl, rfl⟩
  | _ => cases h

theorem Value.fits_iff {kind : FieldKind} {v : Value} : v.fits kind = true ↔ Fits kind v := by
  constructor
  · intro h
    unfold Value.fits at h
    split at h
    · obtain ⟨s, rfl, rfl⟩ := scalarType?_eq_some (beq_iff_eq.1 h)
      exact .scalar s
    · exact .text _
    · obtain ⟨s, rfl, rfl⟩ := scalarType?_eq_some (beq_iff_eq.1 h)
      exact .ownedScalar s
    · exact .ownedText _
    · exact .foreign _ _
    · cases h
  · intro h
    cases h <;> simp [Value.fits, Value.scalarType?]

theorem Value.fits_initial (kind : FieldKind) : Fits kind (.initial kind) := by
  have hzero (type : Scalar) : (ScalarValue.zero type).type = type := ScalarValue.type_ofCode type 0
  cases kind with
  | scalar type =>
    have h := Fits.scalar (.zero type)
    rwa [hzero] at h
  | text => exact .text []
  | owned core =>
    cases core with
    | scalar type =>
      have h := Fits.ownedScalar (.zero type)
      rwa [hzero] at h
    | text => exact .ownedText []
    | foreign path => exact .foreign path []

/-! ## Reading a value -/

namespace Message

/-- What is read for a field fits it. -/
theorem fits_of_readValue {kind : FieldKind} {i j : Input} {v : Value}
    (h : readValue kind i = .ok v j) : Value.Fits kind v := by
  unfold readValue at h
  split at h
  · obtain ⟨s, _, hs, h⟩ := Reader.bind_eq_ok.1 h
    obtain ⟨rfl, -⟩ := Reader.pure_eq_ok.1 h
    rw [← Reader.type_of_scalar hs]
    exact .scalar s
  · obtain ⟨bytes, _, -, h⟩ := Reader.bind_eq_ok.1 h
    obtain ⟨rfl, -⟩ := Reader.pure_eq_ok.1 h
    exact .text bytes
  · obtain ⟨s, _, hs, h⟩ := Reader.bind_eq_ok.1 h
    obtain ⟨rfl, -⟩ := Reader.pure_eq_ok.1 h
    rw [← Reader.type_of_scalar hs]
    exact .ownedScalar s
  · obtain ⟨bytes, _, -, h⟩ := Reader.bind_eq_ok.1 h
    obtain ⟨rfl, -⟩ := Reader.pure_eq_ok.1 h
    exact .ownedText bytes
  · obtain ⟨bytes, _, -, h⟩ := Reader.bind_eq_ok.1 h
    obtain ⟨rfl, -⟩ := Reader.pure_eq_ok.1 h
    exact .foreign _ bytes

/-- A value of a fixed width is read back in front of anything. -/
theorem reads_value {kind : FieldKind} {v : Value} (h : Value.Fits kind v)
    (hkind : kind.streamDelimited = false) : Reader.Reads (readValue kind) v.streamed v := by
  cases h with
  | scalar v => exact (Reader.reads_scalar v).map Value.scalar
  | ownedScalar v => exact (Reader.reads_scalar v).map fun v => Value.owned (.scalar v)
  | text => cases hkind
  | ownedText => cases hkind
  | foreign => cases hkind

/-- At the end of a message every value is read back. -/
theorem readsAll_value {kind : FieldKind} {v : Value} (h : Value.Fits kind v) :
    Reader.ReadsAll (readValue kind) v.streamed v := by
  cases h with
  | scalar v => exact (reads_value (.scalar v) rfl).all
  | ownedScalar v => exact (reads_value (.ownedScalar v) rfl).all
  | text bytes => exact (Reader.readsAll_takeRest bytes).map Value.text
  | ownedText bytes =>
    exact (Reader.readsAll_takeRest bytes).map fun bytes => Value.owned (.text bytes)
  | foreign path bytes => exact (Reader.readsAll_takeRest bytes).map Value.foreign

/-! ## Histories -/

/-- A change that a user of a message asks for. -/
inductive Edit where
  | set (name : String) (v : Value)
  | header (h : Header)
deriving Repr, DecidableEq

/-- The message after a change. A refused change leaves it as it was. -/
def edit (m : Message) : Edit → Message
  | .set name v =>
    match m.set name v with
    | .ok n => n
    | .error _ => m
  | .header h => { m with header := h }

/-- The messages of a descriptor that a user can hold. -/
inductive Reachable (d : Descriptor) : Message → Prop
  | create {header : Header} {values : List Value} {m : Message} :
      Message.create d header values = .ok m → Reachable d m
  | initial (header : Header) : Reachable d (.initial d header)
  | decode {typeId : UInt32} {bytes : List UInt8} {m : Message} :
      Message.decode d typeId bytes = .ok m → Reachable d m
  | edit {m : Message} (e : Edit) : Reachable d m → Reachable d (m.edit e)

/-! ## The invariant -/

def Fitting (fields : List Field) (values : List Value) : Prop :=
  List.Forall₂ (fun f v => Value.Fits f.kind v) fields values

theorem checkKind_eq_ok {name : String} {kind : FieldKind} {v : Value}
    (h : checkKind name kind v = .ok ()) : Value.Fits kind v := by
  unfold checkKind at h
  split at h
  · exact Value.fits_iff.1 ‹_›
  · cases h

theorem fitting_checkAll {fields : List Field} {values : List Value}
    (hlen : values.length = fields.length) (h : checkAll fields values = .ok ()) :
    Fitting fields values := by
  induction fields generalizing values with
  | nil =>
    cases values with
    | nil => exact .nil
    | cons v values => cases hlen
  | cons f fields ih =>
    cases values with
    | nil => cases hlen
    | cons v values =>
      obtain ⟨_, hcheck, h⟩ := Outcome.bind_eq_ok.1 h
      exact .cons (checkKind_eq_ok hcheck) (ih (Nat.succ.inj hlen) h)

theorem fitting_readValues {fields : List Field} {values : List Value} {i j : Input}
    (h : readValues fields i = .ok values j) : Fitting fields values := by
  induction fields generalizing values i j with
  | nil =>
    obtain ⟨rfl, -⟩ := Reader.pure_eq_ok.1 h
    exact .nil
  | cons f fields ih =>
    obtain ⟨v, _, hv, h⟩ := Reader.bind_eq_ok.1 h
    obtain ⟨rest, _, hrest, h⟩ := Reader.bind_eq_ok.1 h
    obtain ⟨rfl, -⟩ := Reader.pure_eq_ok.1 h
    exact .cons (fits_of_readValue hv) (ih hrest)

theorem Fitting.set {fields : List Field} {values : List Value} (h : Fitting fields values)
    {source : Nat} {f : Field} {v : Value} (hf : fields[source]? = some f)
    (hv : Value.Fits f.kind v) : Fitting fields (values.set source v) := by
  induction h generalizing source with
  | nil => cases hf
  | cons hhead htail ih =>
    cases source with
    | zero =>
      cases hf
      exact .cons hv htail
    | succ source => exact .cons hhead (ih hf)

/-- Setting a field replaces its value by one that fits. -/
theorem set_eq_ok {m n : Message} {name : String} {v : Value} (h : m.set name v = .ok n) :
    ∃ source f, m.descriptor.fields[source]? = some f ∧ Value.Fits f.kind v ∧
      n = { m with values := m.values.set source v } := by
  obtain ⟨⟨source, f⟩, hfield, h⟩ := Outcome.bind_eq_ok.1 h
  obtain ⟨_, hcheck, h⟩ := Outcome.bind_eq_ok.1 h
  cases h
  have hfound : m.descriptor.field? name = some (source, f) := by
    unfold Message.field at hfield
    split at hfield <;> cases hfield
    assumption
  exact ⟨source, f, (Descriptor.of_field?_eq_some hfound).1, checkKind_eq_ok hcheck, rfl⟩

theorem fitting_create {d : Descriptor} {header : Header} {values : List Value} {m : Message}
    (h : create d header values = .ok m) : m.descriptor = d ∧ Fitting d.fields m.values := by
  unfold create at h
  obtain ⟨hlen, h⟩ := Outcome.check_eq_ok.1 h
  obtain ⟨_, hcheck, h⟩ := Outcome.bind_eq_ok.1 h
  cases h
  exact ⟨rfl, fitting_checkAll (by simpa using hlen) hcheck⟩

theorem fitting_initial (d : Descriptor) (header : Header) :
    Fitting d.fields (initial d header).values := by
  refine List.forall₂_map_right_iff.2 (List.forall₂_same.2 fun f _ => ?_)
  exact Value.fits_initial f.kind

theorem decode_eq_ok {d : Descriptor} {typeId : UInt32} {bytes : List UInt8} {m : Message}
    (h : decode d typeId bytes = .ok m) : ∃ header values i j,
      d.readHeader typeId (Input.ofBytes bytes) = .ok header i ∧
        readValues d.fields i = .ok values j ∧ m = ⟨d, header, values⟩ := by
  obtain ⟨_, h⟩ := Reader.parse_eq_ok.1 h
  obtain ⟨header, i, hheader, h⟩ := Reader.bind_eq_ok.1 h
  obtain ⟨values, j, hvalues, h⟩ := Reader.bind_eq_ok.1 h
  obtain ⟨rfl, -⟩ := Reader.pure_eq_ok.1 h
  exact ⟨header, values, i, j, hheader, hvalues, rfl⟩

theorem fitting_decode {d : Descriptor} {typeId : UInt32} {bytes : List UInt8} {m : Message}
    (h : decode d typeId bytes = .ok m) : m.descriptor = d ∧ Fitting d.fields m.values := by
  obtain ⟨header, values, _, _, -, hvalues, rfl⟩ := decode_eq_ok h
  exact ⟨rfl, fitting_readValues hvalues⟩

/-- A change keeps the values fitting. -/
theorem fitting_edit {m : Message} (h : Fitting m.descriptor.fields m.values) (e : Edit) :
    (m.edit e).descriptor = m.descriptor ∧ Fitting m.descriptor.fields (m.edit e).values := by
  cases e with
  | header => exact ⟨rfl, h⟩
  | set name v =>
    rw [edit]
    split
    · obtain ⟨source, f, hf, hv, rfl⟩ := set_eq_ok ‹_›
      exact ⟨rfl, h.set hf hv⟩
    · exact ⟨rfl, h⟩

/-- The values of every message that a user can hold fit its fields. -/
theorem Reachable.fitting {d : Descriptor} {m : Message} (h : Reachable d m) :
    m.descriptor = d ∧ Fitting d.fields m.values := by
  induction h with
  | create h => exact fitting_create h
  | initial header => exact ⟨rfl, fitting_initial d header⟩
  | decode h => exact fitting_decode h
  | @edit m e _ ih =>
    obtain ⟨rfl, hfitting⟩ := ih
    exact fitting_edit hfitting e

/-! ## The round trip -/

/-- The values of a message are read back from its bytes if only the last field goes on to the end
of the stream. -/
theorem Fitting.readsAll {fields : List Field} {values : List Value} (h : Fitting fields values)
    (hlast : ∀ f ∈ fields.dropLast, f.kind.streamDelimited = false) :
    Reader.ReadsAll (readValues fields) (values.flatMap Value.streamed) values := by
  induction h with
  | nil => exact (Reader.reads_pure []).all
  | @cons f v fields values hv hrest ih =>
    cases fields with
    | nil =>
      -- The last field takes whatever is left.
      cases hrest
      rw [List.flatMap_singleton]
      exact (readsAll_value hv).bind (Reader.reads_pure [v]).all
    | cons g fields =>
      rw [List.dropLast_cons_cons] at hlast
      have hf := hlast f List.mem_cons_self
      have htail := ih fun g hg => hlast g (List.mem_cons_of_mem _ hg)
      exact (reads_value hv hf).bindAll (htail.map (v :: ·))

/-- **Host messages survive the wire.** Whatever was done to a message of an accepted declaration for
the host, it can be encoded, and decoding the bytes gives it back. -/
theorem decode_encode_message {config : Config} {interface : Interface} {location : Location}
    {declaration : String} {d : Descriptor}
    (hbuild : Descriptor.build config interface location declaration = .ok d)
    (hhost : interface.targets.host = true) (hi : d.internal = false) {m : Message}
    (hm : Reachable d m) {typeId : UInt32} (ht : m.header.typeId = typeId) :
    ∃ bytes, m.encode = .ok bytes ∧ decode d typeId bytes = .ok m := by
  obtain ⟨hd, hfitting⟩ := hm.fitting
  obtain ⟨hconsistent, htargets⟩ := Descriptor.consistent_of_build hbuild
  have hlast := hconsistent.host (by rw [htargets, hhost])
  subst hd
  subst ht
  refine ⟨m.header.encode ++ m.values.flatMap Value.streamed, by simp [encode, hi], ?_⟩
  apply Reader.ReadsAll.parse
  refine (Descriptor.reads_header hi m.header).bindAll ?_
  exact (hfitting.readsAll hlast).map fun values => Message.mk m.descriptor m.header values

/-- A signalling NaN is stored, a value of the wrong kind is refused, and a foreign object follows. -/
theorem decode_encode_streamed : ∃ m bytes, Reachable Descriptor.streamed m ∧
    m.values = [.scalar (.f32 0x7FA00001), .owned (.scalar (.u16 0)), .foreign [1, 2]] ∧
    m.encode = .ok bytes ∧ decode Descriptor.streamed 5 bytes = .ok m := by
  have hm : Reachable Descriptor.streamed ((((initial Descriptor.streamed ⟨4, 0, 0, 1⟩).edit
      (.set "a" (.scalar (.f32 0x7FA00001)))).edit
      (.set "b" (.scalar (.u16 7)))).edit
      (.set "c" (.foreign [1, 2]))) :=
    .edit _ (.edit _ (.edit _ (.initial _)))
  have hm := Reachable.edit (.header ⟨5, 0, 0, 1⟩) hm
  obtain ⟨bytes, hbytes, hdecode⟩ := decode_encode_message Descriptor.build_streamed rfl rfl hm rfl
  exact ⟨_, bytes, hm, rfl, hbytes, hdecode⟩

end Message

end WireSchema
