import WireSchema.Proofs.Wire.RecordLayout

/-!
# Slots of a record

The fields of a record are read and changed through slots. A scalar has one slot and a text has
three, for its bytes, their count and its capacity. Slots are found by their names, the bytes of a
text are put under the name of the field, and the count decides what is read for the bytes.

**Theorem (`set_reachable`).** Whatever was done to a record before, a slot that was set holds the
new value. Setting the bytes of a text also sets their count. No other field, no capacity and not
the header is changed. Capacities cannot be set, and a refused change leaves the record as it was,
also when records are changed in place.

`Put` says once what setting a slot does, and `set_eq_ok` that this is all it does. What is read
afterwards follows from the layout: the cell of another field is another cell, and the bytes of
another text lie in a region apart.
-/

namespace WireSchema

open Wire

theorem Wire.Value.word?_eq_some {v : Value} {n : UInt32} :
    v.word? = some n ↔ v = .scalar (.u32 n) := by
  constructor
  · intro h
    unfold Value.word? at h
    split at h <;> cases h
    rfl
  · rintro rfl
    rfl

/-! ## Slots of a field -/

namespace Descriptor

variable {d : Descriptor} {source : Nat} {f : Field} {s : Slot}

section Fields

variable (hf : d.fields[source]? = some f)
include hf

theorem value_mem_slots {type : Scalar} (hkind : f.kind = .scalar type) :
    ⟨.value, source, f.name, some type⟩ ∈ d.slots :=
  mem_slots_of_mem hf (by simp [Field.slots, hkind])

theorem payload_mem_slots (hkind : f.kind = .text) : ⟨.payload, source, f.name, none⟩ ∈ d.slots :=
  mem_slots_of_mem hf (by simp [Field.slots, hkind])

theorem length_mem_slots (hkind : f.kind = .text) :
    ⟨.length, source, f.lengthName, some .u32⟩ ∈ d.slots :=
  mem_slots_of_mem hf (by simp [Field.slots, hkind])

theorem capacity_mem_slots (hkind : f.kind = .text) :
    ⟨.capacity, source, f.capacityName, some .u32⟩ ∈ d.slots :=
  mem_slots_of_mem hf (by simp [Field.slots, hkind])

end Fields

theorem scalar_of_mem_slots (hs : s ∈ d.slots) (hrole : s.role = .value) :
    ∃ f type, d.fields[s.source]? = some f ∧ f.kind = .scalar type ∧ s.scalar = some type := by
  obtain ⟨f, hf, hmem⟩ := exists_of_mem_slots hs
  have hkind := Field.kind_of_mem_slots hmem
  rw [hrole] at hkind
  obtain ⟨type, hkind, htype⟩ := hkind
  exact ⟨f, type, hf, hkind, htype⟩

/-- The slots that are not for a scalar belong to a text. -/
theorem text_of_mem_slots (hs : s ∈ d.slots) (hrole : s.role ≠ .value) :
    ∃ f, d.fields[s.source]? = some f ∧ f.kind = .text := by
  obtain ⟨f, hf, hmem⟩ := exists_of_mem_slots hs
  have hkind := Field.kind_of_mem_slots hmem
  refine ⟨f, hf, ?_⟩
  cases hs : s.role with
  | value => exact absurd hs hrole
  | payload | length | capacity => rwa [hs] at hkind

end Descriptor

namespace Record

variable {r r' : Record} {s t : Slot} {v : Value}

/-! ## What slots hold -/

def held (r : Record) (s : Slot) : Option Value :=
  match s.role with
  | .value => (r.scalar? s.source).map .scalar
  | .payload => some (.text (r.textAt s.source))
  | .length => some (.scalar (.u32 (r.region s.source).length))
  | .capacity => some (.scalar (.u32 (r.region s.source).capacity))

/-- Every slot of a sound record holds something. -/
theorem Sound.exists_held (hr : r.Sound) (hs : s ∈ r.descriptor.slots) :
    ∃ v, r.held s = some v := by
  unfold held
  cases hrole : s.role with
  | value =>
    obtain ⟨f, type, hf, hkind, -⟩ := Descriptor.scalar_of_mem_slots hs hrole
    obtain ⟨x, hcell, -⟩ := hr.scalar_cell hf hkind
    exact ⟨.scalar x, by rw [scalar?_of_cell hcell]; rfl⟩
  | _ => exact ⟨_, rfl⟩

section Names

variable (hc : r.descriptor.Consistent) (hembedded : r.descriptor.targets.embedded = true)
include hc hembedded

theorem slot_of_mem (hs : s ∈ r.descriptor.slots) : r.slot s.name = .ok s := by
  rw [slot, hc.slot?_name hembedded hs]

/-- The name of a slot finds what it holds. -/
theorem get_of_held (hs : s ∈ r.descriptor.slots) (hv : r.held s = some v) :
    r.get s.name = .ok v := by
  rw [get, slot_of_mem hc hembedded hs, Outcome.ok_bind]
  unfold held at hv
  cases hrole : s.role with
  | value =>
    simp only [hrole] at hv ⊢
    obtain ⟨x, hx, rfl⟩ := Option.map_eq_some_iff.1 hv
    rw [hx]
    rfl
  | payload | length | capacity =>
    simp only [hrole] at hv ⊢
    cases hv
    rfl

end Names

/-! ## What setting a slot does -/

/-- The second record is the first with a value put into the slot `s`. Nothing can be put into a
capacity. -/
inductive Put (r : Record) (s : Slot) : Value → Record → Prop
  | value {x : ScalarValue} : s.role = .value → s.scalar = some x.type →
      Put r s (.scalar x) { r with cells := r.cells.set s.source (.scalar x) }
  | payload {bytes : List UInt8} : s.role = .payload →
      bytes.length ≤ (r.region s.source).capacity.toNat →
      Put r s (.text bytes) (r.withText s.source bytes)
  | length {n : UInt32} : s.role = .length → n ≤ (r.region s.source).capacity →
      Put r s (.scalar (.u32 n)) (r.setLength s.source n)

theorem setText_name (hnames : (r.descriptor.fields.map Field.name).Nodup) {source : Nat}
    {f : Field} (hf : r.descriptor.fields[source]? = some f) (hkind : f.kind = .text)
    {bytes : List UInt8} :
    r.setText f.name bytes = .ok r' ↔
      bytes.length ≤ (r.region source).capacity.toNat ∧ r' = r.withText source bytes := by
  rw [setText, textSource_name hnames hf hkind, Outcome.ok_bind]
  constructor
  · intro h
    obtain ⟨hfits, h⟩ := Outcome.check_eq_ok.1 h
    cases h
    exact ⟨Nat.not_lt.1 hfits, rfl⟩
  · rintro ⟨hfits, rfl⟩
    exact Outcome.check_eq_ok.2 ⟨Nat.not_lt.2 hfits, rfl⟩

theorem fieldName_eq {source : Nat} {f : Field} (hf : r.descriptor.fields[source]? = some f) :
    r.fieldName source = f.name := by
  rw [fieldName, hf]

section Setting

variable (hc : r.descriptor.Consistent) (hembedded : r.descriptor.targets.embedded = true)
  (hs : s ∈ r.descriptor.slots)
include hc hembedded hs

/-- Setting a slot by its name succeeds exactly if the value can be put into it. -/
theorem set_eq_ok : r.set s.name v = .ok r' ↔ Put r s v r' := by
  rw [set, slot_of_mem hc hembedded hs, Outcome.ok_bind]
  constructor
  · intro h
    -- One check for each role, and none that a capacity passes.
    cases hrole : s.role with
    | value =>
      obtain ⟨_, type, -, -, htype⟩ := Descriptor.scalar_of_mem_slots hs hrole
      simp only [hrole, htype] at h
      obtain ⟨x, hx, hput⟩ := Outcome.bind_eq_ok.1 h
      obtain ⟨rfl, rfl⟩ := scalarArg_eq_ok.1 hx
      cases hput
      exact .value hrole htype
    | payload =>
      obtain ⟨f, hf, hkind⟩ := Descriptor.text_of_mem_slots hs (by simp [hrole])
      simp only [hrole] at h
      split at h
      · rw [fieldName_eq hf] at h
        obtain ⟨hfits, rfl⟩ := (setText_name hc.names_nodup hf hkind).1 h
        exact .payload hrole hfits
      · cases h
    | length =>
      simp only [hrole] at h
      split at h
      · cases h
      · obtain rfl := Value.word?_eq_some.1 ‹_›
        obtain ⟨hfits, h⟩ := Outcome.check_eq_ok.1 h
        cases h
        exact .length hrole (UInt32.not_lt.1 hfits)
    | capacity =>
      simp only [hrole] at h
      cases h
  · intro h
    cases h with
    | value hrole htype =>
      simp only [hrole, htype]
      exact Outcome.bind_eq_ok.2 ⟨_, scalarArg_eq_ok.2 ⟨rfl, rfl⟩, rfl⟩
    | payload hrole hfits =>
      obtain ⟨f, hf, hkind⟩ := Descriptor.text_of_mem_slots hs (by simp [hrole])
      simp only [hrole, fieldName_eq hf]
      exact (setText_name hc.names_nodup hf hkind).2 ⟨hfits, rfl⟩
    | length hrole hfits =>
      simp only [hrole]
      exact Outcome.check_eq_ok.2 ⟨UInt32.not_lt.2 hfits, rfl⟩

theorem set_capacity (hrole : s.role = .capacity) (v : Value) :
    r.set s.name v = .error (.fixedAtCreation s.name) := by
  rw [set, slot_of_mem hc hembedded hs, Outcome.ok_bind]
  simp only [hrole]
  rfl

end Setting

/-! ## What slots hold afterwards -/

theorem region_setLength (hr : r.Sound) {source : Nat} {f : Field}
    (hf : r.descriptor.fields[source]? = some f) (hkind : f.kind = .text) (n : UInt32) :
    (r.setLength source n).region source = { r.region source with length := n } := by
  obtain ⟨hcell, -⟩ := hr.text_cell hf hkind
  apply region_of_cell
  exact List.getElem?_set_self (List.getElem?_eq_some_iff.1 hcell).1

theorem toNat_count {bytes : List UInt8} {capacity : UInt32} (h : bytes.length ≤ capacity.toNat) :
    (UInt32.ofNat bytes.length).toNat = bytes.length :=
  UInt32.toNat_ofNat_of_lt' (Nat.lt_of_le_of_lt h capacity.toNat_lt)

/-- A text that was put into its region is read back. -/
theorem textAt_withText (hr : r.Sound) {source : Nat} {f : Field}
    (hf : r.descriptor.fields[source]? = some f) (hkind : f.kind = .text) {bytes : List UInt8}
    (hfits : bytes.length ≤ (r.region source).capacity.toNat) :
    (r.withText source bytes).textAt source = bytes := by
  have hregion : (r.withText source bytes).region source =
      { r.region source with length := .ofNat bytes.length } := region_setLength hr hf hkind _
  rw [textAt, hregion]
  simp only [toNat_count hfits, Nat.min_eq_left hfits]
  exact Buffer.slice_write ..

/-- With another length, a text is as many bytes of its region. -/
theorem textAt_setLength (hr : r.Sound) {source : Nat} {f : Field}
    (hf : r.descriptor.fields[source]? = some f) (hkind : f.kind = .text) {n : UInt32}
    (hfits : n ≤ (r.region source).capacity) :
    (r.setLength source n).textAt source =
      r.buffer.slice (r.region source).offset n.toNat := by
  rw [textAt, region_setLength hr hf hkind]
  simp only [Nat.min_eq_left (UInt32.le_iff_toNat_le.1 hfits)]
  rfl

namespace Put

variable (h : Put r s v r') (hs : s ∈ r.descriptor.slots)
include h

theorem header : r'.header = r.header := by
  cases h <;> rfl

theorem cell_other {i : Nat} (hne : i ≠ s.source) : r'.cells[i]? = r.cells[i]? := by
  cases h <;> exact List.getElem?_set_ne hne.symm

include hs

theorem step : Step r r' := by
  cases h with
  | value hrole hx =>
    obtain ⟨f, type, hf, hkind, htype⟩ := Descriptor.scalar_of_mem_slots hs hrole
    cases hx.symm.trans htype
    exact .scalar hf hkind
  | payload hrole hfits =>
    obtain ⟨f, hf, hkind⟩ := Descriptor.text_of_mem_slots hs (by simp [hrole])
    exact .text hf hkind hfits
  | length hrole hfits =>
    obtain ⟨f, hf, hkind⟩ := Descriptor.text_of_mem_slots hs (by simp [hrole])
    exact .length hf hkind hfits

variable (hr : r.Sound)
include hr

theorem held_self : r'.held s = some v := by
  cases h with
  | @value x hrole hx =>
    obtain ⟨f, type, hf, hkind, -⟩ := Descriptor.scalar_of_mem_slots hs hrole
    obtain ⟨_, hcell, -⟩ := hr.scalar_cell hf hkind
    have hself : (r.cells.set s.source (.scalar x))[s.source]? = some (.scalar x) :=
      List.getElem?_set_self (List.getElem?_eq_some_iff.1 hcell).1
    simp only [held, hrole, scalar?, hself, Option.map_some]
  | payload hrole hfits =>
    obtain ⟨f, hf, hkind⟩ := Descriptor.text_of_mem_slots hs (by simp [hrole])
    simp only [held, hrole, textAt_withText hr hf hkind hfits]
  | length hrole hfits =>
    obtain ⟨f, hf, hkind⟩ := Descriptor.text_of_mem_slots hs (by simp [hrole])
    simp only [held, hrole, region_setLength hr hf hkind]

/-- The bytes of a text bring their count with them. -/
theorem held_length (hrole : s.role = .payload) : ∃ f bytes, ∃ n : UInt32,
    r.descriptor.fields[s.source]? = some f ∧ f.kind = .text ∧ v = .text bytes ∧
      n.toNat = bytes.length ∧
      r'.held ⟨.length, s.source, f.lengthName, some .u32⟩ = some (.scalar (.u32 n)) := by
  obtain ⟨f, hf, hkind⟩ := Descriptor.text_of_mem_slots hs (by simp [hrole])
  cases h with
  | value hvalue => cases hrole.symm.trans hvalue
  | length hlength => cases hrole.symm.trans hlength
  | @payload bytes _ hfits =>
    refine ⟨f, bytes, .ofNat bytes.length, hf, hkind, rfl, toNat_count hfits, ?_⟩
    have hregion : (r.withText s.source bytes).region s.source =
        { r.region s.source with length := .ofNat bytes.length } := region_setLength hr hf hkind _
    simp only [held, hregion]

/-- The count of a text says how much of its region is read. -/
theorem held_payload (hrole : s.role = .length) : ∃ f n,
    r.descriptor.fields[s.source]? = some f ∧ f.kind = .text ∧ v = .scalar (.u32 n) ∧
      r'.held ⟨.payload, s.source, f.name, none⟩ =
        some (.text (r.buffer.slice (r.region s.source).offset n.toNat)) := by
  obtain ⟨f, hf, hkind⟩ := Descriptor.text_of_mem_slots hs (by simp [hrole])
  cases h with
  | value hvalue => cases hrole.symm.trans hvalue
  | payload hpayload => cases hrole.symm.trans hpayload
  | @length n _ hfits =>
    refine ⟨f, n, hf, hkind, rfl, ?_⟩
    simp only [held, textAt_setLength hr hf hkind hfits]

/-- The bytes in the regions of other texts stay. -/
theorem slice_other {q : Nat × Field} (hq : q ∈ r.descriptor.textFields) (hne : q.1 ≠ s.source)
    {n : Nat} (hn : n ≤ (r.region q.1).capacity.toNat) :
    r'.buffer.slice (r.region q.1).offset n = r.buffer.slice (r.region q.1).offset n := by
  cases h with
  | value => rfl
  | length => rfl
  | @payload bytes hrole hfits =>
    obtain ⟨f, hf, hkind⟩ := Descriptor.text_of_mem_slots hs (by simp [hrole])
    have hp : (s.source, f) ∈ r.descriptor.textFields := Descriptor.mem_textFields.2 ⟨hf, hkind⟩
    have hpq : q ≠ (s.source, f) := fun heq => hne (congrArg Prod.fst heq)
    rcases hr.apart hq hp hpq with hbefore | hbehind
    · exact Buffer.slice_write_of_le _ _ (Nat.le_trans (Nat.add_le_add_left hn _) hbefore)
    · exact Buffer.slice_write_of_ge _ _ (Nat.le_trans (Nat.add_le_add_left hfits _) hbehind)

/-- The slots of other fields hold what they held. -/
theorem held_other (ht : t ∈ r.descriptor.slots) (hne : t.source ≠ s.source) :
    r'.held t = r.held t := by
  have hcell := h.cell_other hne
  have hregion : r'.region t.source = r.region t.source := by rw [region, region, hcell]
  unfold held
  cases hrole : t.role with
  | value => simp only [scalar?, hcell]
  | payload =>
    obtain ⟨f, hf, hkind⟩ := Descriptor.text_of_mem_slots ht (by simp [hrole])
    have hq : (t.source, f) ∈ r.descriptor.textFields := Descriptor.mem_textFields.2 ⟨hf, hkind⟩
    have htext : r'.textAt t.source = r.textAt t.source := by
      rw [textAt, textAt, hregion]
      exact h.slice_other hs hr hq hne (Nat.min_le_right ..)
    simp only [htext]
  | length => simp only [hregion]
  | capacity => simp only [hregion]

theorem held_capacity (hrole : t.role = .capacity) : r'.held t = r.held t := by
  have hcapacity := (region_of_spans ((h.step hs).spans hr) t.source).2
  simp only [held, hrole, hcapacity]

end Put

structure SetTo (r : Record) (s : Slot) (v : Value) (r' : Record) : Prop where
  get_self : r'.get s.name = .ok v
  /-- The bytes of a text bring their count with them. -/
  get_length : s.role = .payload → ∃ f bytes, ∃ n : UInt32,
    r.descriptor.fields[s.source]? = some f ∧ v = .text bytes ∧ n.toNat = bytes.length ∧
      r'.get f.lengthName = .ok (.scalar (.u32 n))
  /-- The count of a text says how much of its region is read. -/
  get_payload : s.role = .length → ∃ f n,
    r.descriptor.fields[s.source]? = some f ∧ v = .scalar (.u32 n) ∧
      r'.get f.name = .ok (.text (r.buffer.slice (r.region s.source).offset n.toNat))
  get_other : ∀ t ∈ r.descriptor.slots, t.source ≠ s.source ∨ t.role = .capacity →
    ∃ w, r.get t.name = .ok w ∧ r'.get t.name = .ok w
  header_eq : r'.header = r.header

/-- What is put into a slot is read from it, and nothing else that is read depends on it but the
bytes of a text on their count and the other way round. -/
theorem Put.setTo (h : Put r s v r') (hr : r.Sound) (hc : r.descriptor.Consistent)
    (hembedded : r.descriptor.targets.embedded = true) (hs : s ∈ r.descriptor.slots) :
    SetTo r s v r' := by
  have hd : r'.descriptor = r.descriptor := (h.step hs).descriptor
  have hget {t : Slot} (ht : t ∈ r.descriptor.slots) {w : Value} (hw : r'.held t = some w) :
      r'.get t.name = .ok w :=
    get_of_held (by rwa [hd]) (by rwa [hd]) (by rwa [hd]) hw
  refine ⟨hget hs (h.held_self hs hr), ?_, ?_, ?_, h.header⟩
  · intro hrole
    obtain ⟨f, bytes, n, hf, hkind, hv, hn, hheld⟩ := h.held_length hs hr hrole
    exact ⟨f, bytes, n, hf, hv, hn, hget (Descriptor.length_mem_slots hf hkind) hheld⟩
  · intro hrole
    obtain ⟨f, n, hf, hkind, hv, hheld⟩ := h.held_payload hs hr hrole
    exact ⟨f, n, hf, hv, hget (Descriptor.payload_mem_slots hf hkind) hheld⟩
  · intro t ht hkept
    obtain ⟨w, hw⟩ := hr.exists_held ht
    have hsame : r'.held t = r.held t := by
      rcases hkept with hne | hrole
      · exact h.held_other hs hr ht hne
      · exact h.held_capacity hs hr hrole
    exact ⟨w, get_of_held hc hembedded ht hw, hget ht (hsame.trans hw)⟩

/-! ## Changes in place -/

/-- Puts bytes into a text of a record that is held in place: first the bytes, then their count. -/
def putText (name : String) (bytes : List UInt8) : EStateM WireError Record Unit := do
  let source ← MonadExcept.ofExcept ((← MonadState.get).textSource name)
  let region := (← MonadState.get).region source
  if region.capacity.toNat < bytes.length then
    throw (.overflow name bytes.length region.capacity.toNat)
  modify fun r => { r with buffer := r.buffer.write region.offset bytes }
  modify fun r => r.setLength source (.ofNat bytes.length)

/-- Sets a slot of a record that is held in place. -/
def put (name : String) (v : Value) : EStateM WireError Record Unit := do
  let s ← MonadExcept.ofExcept ((← MonadState.get).slot name)
  match s.role with
  | .value =>
    match s.scalar with
    | some type =>
      let x ← MonadExcept.ofExcept (scalarArg s.name type v)
      modify fun r => { r with cells := r.cells.set s.source (.scalar x) }
    | none => throw (.wrongKind s.name .text)
  | .payload =>
    match v with
    | .text bytes => putText ((← MonadState.get).fieldName s.source) bytes
    | _ => throw (.wrongKind s.name .text)
  | .length =>
    match v.word? with
    | none => throw (.wrongKind s.name (.scalar .u32))
    | some length =>
      let capacity := ((← MonadState.get).region s.source).capacity
      if capacity < length then throw (.overflow s.name length.toNat capacity.toNat)
      modify fun r => r.setLength s.source length
  | .capacity => throw (.fixedAtCreation s.name)

/-- The bytes and their count are written behind the last check. -/
theorem inPlace_putText (name : String) (bytes : List UInt8) :
    Outcome.InPlace (putText name bytes) fun r => (r.setText name bytes).map (Prod.mk ()) := by
  intro r
  cases hsource : r.textSource name with
  | error e =>
    simp only [putText, setText, Outcome.get_bind, hsource]
    rfl
  | ok source =>
    simp only [putText, setText, Outcome.get_bind, hsource, Outcome.ofExcept_ok_bind,
      Outcome.ok_bind]
    by_cases hfits : (r.region source).capacity.toNat < bytes.length
    · simp only [if_pos hfits]
      rfl
    · simp only [if_neg hfits]
      rfl

/-- All checks of a change come before its first write. -/
theorem inPlace_put (name : String) (v : Value) :
    Outcome.InPlace (put name v) fun r => (r.set name v).map (Prod.mk ()) := by
  intro r
  cases hslot : r.slot name with
  | error e =>
    simp only [put, set, Outcome.get_bind, hslot]
    rfl
  | ok s =>
    simp only [put, set, Outcome.get_bind, hslot, Outcome.ofExcept_ok_bind, Outcome.ok_bind]
    -- The change in place and the pure one make the same checks, role by role.
    cases hrole : s.role with
    | value =>
      cases hscalar : s.scalar with
      | none => rfl
      | some type =>
        cases hx : scalarArg s.name type v with
        | error e => simp only [hx]; rfl
        | ok x => simp only [hx]; rfl
    | payload =>
      cases v with
      | text bytes => exact inPlace_putText (r.fieldName s.source) bytes r
      | scalar | owned | foreign => rfl
    | length =>
      cases hword : v.word? with
      | none => rfl
      | some length =>
        simp only [Outcome.get_bind]
        by_cases hfits : (r.region s.source).capacity < length
        · simp only [if_pos hfits]
          rfl
        · simp only [if_neg hfits]
          rfl
    | capacity => rfl

/-- **A slot that is set holds the new value, and the others are left alone.** Whatever was done to a
record of a message that was built for the embedded side, setting a slot succeeds exactly if the
value can be put there, and then `SetTo` says what is read. A capacity cannot be set. A change that
is refused, of any slot or text, leaves the record as it was. -/
theorem set_reachable {config : Config} {interface : Interface} {location : Location}
    {declaration : String} {d : Descriptor}
    (hbuild : Descriptor.build config interface location declaration = .ok d)
    (hembedded : interface.targets.embedded = true) {r : Record} (hr : Reachable d r) :
    (∀ s ∈ d.slots, ∀ v,
      (∀ r', (r.set s.name v = .ok r' ↔ Put r s v r') ∧
        (r.set s.name v = .ok r' → SetTo r s v r')) ∧
      (s.role = .capacity → r.set s.name v = .error (.fixedAtCreation s.name))) ∧
    (∀ name v, Outcome.InPlace (put name v) (fun r => (r.set name v).map (Prod.mk ())) ∧
      ∀ e left, put name v r = .error e left → left = r) ∧
    ∀ name bytes,
      Outcome.InPlace (putText name bytes) (fun r => (r.setText name bytes).map (Prod.mk ())) ∧
      ∀ e left, putText name bytes r = .error e left → left = r := by
  obtain ⟨hsound, rfl⟩ := hr.sound
  obtain ⟨hc, htargets⟩ := Descriptor.consistent_of_build hbuild
  rw [← htargets] at hembedded
  refine ⟨fun s hs v => ⟨fun r' => ?_, ?_⟩, fun name v => ?_, fun name bytes => ?_⟩
  · have hput : r.set s.name v = .ok r' ↔ Put r s v r' := set_eq_ok hc hembedded hs
    exact ⟨hput, fun h => (hput.1 h).setTo hsound hc hembedded hs⟩
  · intro hrole
    exact set_capacity hc hembedded hs hrole v
  · exact ⟨inPlace_put name v, fun e left => (inPlace_put name v).unchanged⟩
  · exact ⟨inPlace_putText name bytes, fun e left => (inPlace_putText name bytes).unchanged⟩

/-- A text that fills its region is set. Its count follows, and the text behind it and the number
stay. A text that is too long is refused, and so is a new capacity. -/
theorem set_reachable_mixed : Reachable Descriptor.mixed mixed ∧
    (∃ r', mixed.set "a" (.text [1, 2, 3, 4]) = .ok r' ∧ r'.get "a" = .ok (.text [1, 2, 3, 4]) ∧
      r'.get "Alength" = .ok (.scalar (.u32 4)) ∧ r'.get "c" = .ok (.text []) ∧
      r'.get "b" = .ok (.scalar (.i16 (-2)))) ∧
    mixed.set "Abufferlength" (.scalar (.u32 9)) = .error (.fixedAtCreation "Abufferlength") ∧
    (∃ e, put "a" (.text [1, 2, 3, 4, 5]) mixed = .error e mixed) ∧
    ∃ e, putText "b" [] mixed = .error e mixed := by
  obtain ⟨hset, hput, htext⟩ := set_reachable Descriptor.build_mixed rfl reachable_mixed
  refine ⟨reachable_mixed, ?_, ?_, ?_, ?_⟩
  · have hs : ⟨.payload, 0, "a", none⟩ ∈ Descriptor.mixed.slots := by decide +kernel
    have hb : ⟨.value, 1, "b", some .i16⟩ ∈ Descriptor.mixed.slots := by decide +kernel
    have hc : ⟨.payload, 2, "c", none⟩ ∈ Descriptor.mixed.slots := by decide +kernel
    obtain ⟨r', hr'⟩ : ∃ r', mixed.set "a" (.text [1, 2, 3, 4]) = .ok r' := ⟨_, rfl⟩
    have hafter := ((hset _ hs (.text [1, 2, 3, 4])).1 r').2 hr'
    obtain ⟨f, bytes, n, hf, ⟨⟩, hn, hlength⟩ := hafter.get_length rfl
    cases hf
    obtain rfl : n = 4 := UInt32.toNat_inj.1 hn
    obtain ⟨w, hw, htext⟩ := hafter.get_other _ hc (.inl (by decide))
    obtain ⟨x, hx, hscalar⟩ := hafter.get_other _ hb (.inl (by decide))
    cases hw
    cases hx
    exact ⟨r', hr', hafter.get_self, hlength, htext, hscalar⟩
  · exact (hset ⟨.capacity, 0, "Abufferlength", some .u32⟩ (by decide +kernel) _).2 rfl
  · obtain ⟨e, left, hrefused⟩ : ∃ e left,
        put "a" (.text [1, 2, 3, 4, 5]) mixed = .error e left := ⟨_, _, rfl⟩
    obtain rfl := (hput _ _).2 e left hrefused
    exact ⟨e, hrefused⟩
  · obtain ⟨e, left, hrefused⟩ : ∃ e left, putText "b" [] mixed = .error e left := ⟨_, _, rfl⟩
    obtain rfl := (htext _ _).2 e left hrefused
    exact ⟨e, hrefused⟩

end Record

end WireSchema
