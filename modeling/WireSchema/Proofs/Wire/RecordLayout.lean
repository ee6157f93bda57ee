import Mathlib.Data.List.Basic
import Mathlib.Data.List.Pairwise
import WireSchema.Proofs.Schema.Build
import WireSchema.Proofs.Wire.Reading
import WireSchema.Wire.Record

/-!
# The layout of a record

All texts of a record share one buffer. Its users reach them through offsets, lengths and capacities
that are kept in the cells, and nothing but the arithmetic on these keeps a text from running into
the next one or out of the buffer.

**Theorem (`layout_of_reachable`).** Create or decode a record and change it in any way, as often as
wanted, refused changes included. Then the texts lie back to back in declaration order and fill the
buffer, no length passes its capacity, every part of the buffer that an operation touches lies
inside the region of one text, regions of different texts do not overlap, and no change moves
or resizes a region.

The invariant is `LaidOut`: walking along fields and cells together, every cell suits its field, and
a text starts where the one before it ended. Both ways to make a record establish it
(`laidOut_layOut`, `laidOut_cellsOf`). `Step` says once what a change can do. Every step leaves the
cells alone or replaces one of them by another of the same span (`Step.cells`), and that keeps
`LaidOut` and all the spans.
-/

namespace WireSchema

open Wire

/-! ## Histories -/

namespace Record

/-- A change that a user of a record asks for. -/
inductive Edit where
  | set (name : String) (v : Value)
  | setText (name : String) (bytes : List UInt8)
  | header (h : Header)
deriving Repr, DecidableEq

/-- The outcome of an attempt, or the record as it was. -/
def orKeep (r : Record) : Except WireError Record → Record
  | .ok s => s
  | .error _ => r

/-- The record after a change. A refused change leaves it as it was. -/
def edit (r : Record) : Edit → Record
  | .set name v => r.orKeep (r.set name v)
  | .setText name bytes => r.orKeep (r.setText name bytes)
  | .header h => { r with header := h }

/-- The records of a descriptor that a user can hold. -/
inductive Reachable (d : Descriptor) : Record → Prop
  | create {header : Header} {args : List Value} {r : Record} :
      Record.create d header args = .ok r → Reachable d r
  | decode {typeId : UInt32} {bytes : List UInt8} {r : Record} :
      Record.decode d typeId bytes = .ok r → Reachable d r
  | edit {r : Record} (e : Edit) : Reachable d r → Reachable d (r.edit e)

/-- The record after changes, first change first. -/
def edits (r : Record) (changes : List Edit) : Record := changes.foldl edit r

theorem Reachable.edits {d : Descriptor} {r : Record} (h : Reachable d r) (changes : List Edit) :
    Reachable d (r.edits changes) := by
  induction changes generalizing r with
  | nil => exact h
  | cons e changes ih => exact ih (.edit e h)

/-! ## What a change can do -/

def withText (r : Record) (source : Nat) (bytes : List UInt8) : Record :=
  { r.setLength source (.ofNat bytes.length) with
    buffer := r.buffer.write (r.region source).offset bytes }

/-- What one change does. -/
inductive Step (r : Record) : Record → Prop
  | refused : Step r r
  | header (h : Header) : Step r { r with header := h }
  | scalar {source : Nat} {f : Field} {v : ScalarValue} :
      r.descriptor.fields[source]? = some f → f.kind = .scalar v.type →
      Step r { r with cells := r.cells.set source (.scalar v) }
  | length {source : Nat} {f : Field} {length : UInt32} :
      r.descriptor.fields[source]? = some f → f.kind = .text →
      length ≤ (r.region source).capacity → Step r (r.setLength source length)
  | text {source : Nat} {f : Field} {bytes : List UInt8} :
      r.descriptor.fields[source]? = some f → f.kind = .text →
      bytes.length ≤ (r.region source).capacity.toNat → Step r (r.withText source bytes)

theorem textSource_eq_ok {r : Record} {name : String} {source : Nat}
    (h : r.textSource name = .ok source) :
    ∃ f, r.descriptor.field? name = some (source, f) ∧ f.kind = .text := by
  unfold textSource at h
  split at h
  · rename_i source' f hfind
    split at h
    · cases h
      exact ⟨f, hfind, ‹_›⟩
    · cases h
  · cases h

/-- The name of a text field finds it when no two fields have one name. -/
theorem textSource_name {r : Record} (hnames : (r.descriptor.fields.map Field.name).Nodup)
    {source : Nat} {f : Field} (hf : r.descriptor.fields[source]? = some f)
    (hkind : f.kind = .text) : r.textSource f.name = .ok source := by
  rw [textSource, Descriptor.field?_name hnames hf]
  exact if_pos hkind

/-- A text is put at the start of its region if the region has room for it. -/
theorem setText_eq_ok {r s : Record} {name : String} {bytes : List UInt8}
    (h : r.setText name bytes = .ok s) :
    ∃ source f, r.descriptor.field? name = some (source, f) ∧ f.kind = .text ∧
      bytes.length ≤ (r.region source).capacity.toNat ∧ s = r.withText source bytes := by
  obtain ⟨source, hsource, h⟩ := Outcome.bind_eq_ok.1 h
  obtain ⟨f, hfind, hkind⟩ := textSource_eq_ok hsource
  obtain ⟨hfits, h⟩ := Outcome.check_eq_ok.1 h
  cases h
  exact ⟨source, f, hfind, hkind, Nat.not_lt.1 hfits, rfl⟩

theorem step_of_setText {r s : Record} {name : String} {bytes : List UInt8}
    (h : r.setText name bytes = .ok s) : Step r s := by
  obtain ⟨source, f, hfind, hkind, hfits, rfl⟩ := setText_eq_ok h
  exact .text (Descriptor.of_field?_eq_some hfind).1 hkind hfits

theorem scalarArg_eq_ok {name : String} {type : Scalar} {v : Value} {s : ScalarValue} :
    scalarArg name type v = .ok s ↔ v = .scalar s ∧ s.type = type := by
  constructor
  · intro h
    unfold scalarArg at h
    split at h
    · rename_i s' hs
      cases h
      unfold Value.ofType? at hs
      split at hs
      · split at hs
        · cases hs
          exact ⟨rfl, ‹_›⟩
        · cases hs
      · cases hs
    · cases h
  · rintro ⟨rfl, rfl⟩
    simp only [scalarArg, Value.ofType?, if_true]

end Record

/-- The slots of a scalar and of a text, by their roles. -/
theorem Field.kind_of_mem_slots {f : Field} {source : Nat} {s : Slot} (h : s ∈ f.slots source) :
    match s.role with
    | .value => ∃ type, f.kind = .scalar type ∧ s.scalar = some type
    | _ => f.kind = .text := by
  unfold Field.slots at h
  split at h
  · rename_i type hkind
    rw [List.mem_singleton] at h
    subst h
    exact ⟨type, hkind, rfl⟩
  · rename_i hkind
    simp only [List.mem_cons, List.not_mem_nil, or_false] at h
    rcases h with rfl | rfl | rfl <;> exact hkind
  · cases h

namespace Record

theorem slot_eq_ok {r : Record} {name : String} {slot : Slot} (h : r.slot name = .ok slot) :
    r.descriptor.slot? name = some slot := by
  unfold Record.slot at h
  split at h <;> cases h
  assumption

theorem step_of_set {r s : Record} {name : String} {v : Value} (h : r.set name v = .ok s) :
    Step r s := by
  obtain ⟨slot, hslot, h⟩ := Outcome.bind_eq_ok.1 h
  obtain ⟨_, f, hget, hmem⟩ := Descriptor.of_slot?_eq_some (slot_eq_ok hslot)
  have hkind := Field.kind_of_mem_slots hmem
  split at h <;> rename_i hrole <;> rw [hrole] at hkind
  · obtain ⟨type, hkind, htype⟩ := hkind
    rw [htype] at h
    obtain ⟨w, hw, h⟩ := Outcome.bind_eq_ok.1 h
    cases h
    rw [← (scalarArg_eq_ok.1 hw).2] at hkind
    exact .scalar hget hkind
  · split at h
    · exact step_of_setText h
    · cases h
  · split at h
    · cases h
    · obtain ⟨hfits, h⟩ := Outcome.check_eq_ok.1 h
      cases h
      exact .length hget hkind (UInt32.not_lt.1 hfits)
  · cases h

theorem step_orKeep {r : Record} {attempt : Except WireError Record}
    (h : ∀ s, attempt = .ok s → Step r s) : Step r (r.orKeep attempt) := by
  cases attempt with
  | ok s => exact h s rfl
  | error e => exact .refused

/-- Every change is a step. -/
theorem step_edit (r : Record) (e : Edit) : Step r (r.edit e) := by
  cases e with
  | set name v => exact step_orKeep fun s => step_of_set
  | setText name bytes => exact step_orKeep fun s => step_of_setText
  | header h => exact .header h

end Record

/-! ## The invariant -/

namespace Cell

/-- Where the text of a cell starts in the buffer, and how much room it has there. -/
def span : Cell → Option (Nat × Nat)
  | .text region => some (region.offset, region.capacity.toNat)
  | _ => none

/-- How much of the buffer a cell takes. -/
def extent (c : Cell) : Nat :=
  match c.span with
  | some (_, room) => room
  | none => 0

/-- The cell is one that a record can hold for `f`. -/
def Suits (f : Field) : Cell → Prop
  | .scalar v => f.kind = .scalar v.type
  | .text region => f.kind = .text ∧ region.length ≤ region.capacity
  | .absent => f.kind.isOwned = true

end Cell

/-- The cells suit the fields, and their texts lie back to back from `start` to `stop`. -/
inductive LaidOut : Nat → List Field → List Cell → Nat → Prop
  | nil (start : Nat) : LaidOut start [] [] start
  | cons {start stop : Nat} {f : Field} {fields : List Field} {c : Cell} {cells : List Cell} :
      c.Suits f → (∀ p, c.span = some p → p.1 = start) →
      LaidOut (start + c.extent) fields cells stop →
      LaidOut start (f :: fields) (c :: cells) stop

namespace LaidOut

variable {start stop : Nat} {fields : List Field} {cells : List Cell}

theorem length_eq (h : LaidOut start fields cells stop) : fields.length = cells.length := by
  induction h with
  | nil => rfl
  | cons _ _ _ ih => rw [List.length_cons, List.length_cons, ih]

/-- Every field has a cell that suits it. -/
theorem cell (h : LaidOut start fields cells stop) {i : Nat} {f : Field}
    (hf : fields[i]? = some f) : ∃ c, cells[i]? = some c ∧ c.Suits f := by
  induction h generalizing i with
  | nil => cases hf
  | @cons _ _ _ _ c _ hsuits _ _ ih =>
    cases i with
    | zero =>
      cases hf
      exact ⟨c, rfl, hsuits⟩
    | succ i => exact ih hf

/-- A cell may be replaced by one that suits the field and has the same span. -/
theorem set (h : LaidOut start fields cells stop) {i : Nat} {f : Field} {c c' : Cell}
    (hf : fields[i]? = some f) (hc : cells[i]? = some c) (hsuits : c'.Suits f)
    (hspan : c'.span = c.span) : LaidOut start fields (cells.set i c') stop := by
  induction h generalizing i with
  | nil => cases hf
  | cons hhead hstart htail ih =>
    cases i with
    | zero =>
      cases hf
      cases hc
      refine .cons hsuits (by rwa [hspan]) ?_
      rwa [Cell.extent, hspan]
    | succ i => exact .cons hhead hstart (ih hf hc)

end LaidOut

namespace Record

/-- Creation lays the cells out. -/
theorem laidOut_layOut {short : WireError} {offset size : Nat} {fields : List Field}
    {args : List Value} {cells : List Cell}
    (h : layOut short offset fields args = .ok (cells, size)) :
    LaidOut offset fields cells size := by
  induction fields generalizing offset args cells with
  | nil =>
    cases h
    exact .nil _
  | cons f fields ih =>
    unfold layOut at h
    split at h
    · rename_i type arg args hkind
      obtain ⟨v, hv, h⟩ := Outcome.bind_eq_ok.1 h
      obtain ⟨⟨rest, _⟩, hrest, h⟩ := Outcome.bind_eq_ok.1 h
      cases h
      rw [← (scalarArg_eq_ok.1 hv).2] at hkind
      exact .cons hkind nofun (ih hrest)
    · rename_i arg args hkind
      obtain ⟨capacity, -, h⟩ := Outcome.bind_eq_ok.1 h
      obtain ⟨⟨rest, _⟩, hrest, h⟩ := Outcome.bind_eq_ok.1 h
      cases h
      refine .cons ⟨hkind, UInt32.zero_le⟩ ?_ (ih hrest)
      rintro p ⟨⟩
      rfl
    · rename_i core hkind
      obtain ⟨⟨rest, _⟩, hrest, h⟩ := Outcome.bind_eq_ok.1 h
      cases h
      exact .cons (by rw [Cell.Suits, hkind]; rfl) nofun (ih hrest)
    · cases h

/-- Decoding lays the cells out. -/
theorem laidOut_cellsOf (offset : Nat) {fields : List Field} {values : List ScalarValue}
    {texts : List (List UInt8)} {i j k l : Input} (hvalues : readFixed fields i = .ok values j)
    (htexts : readTexts fields k = .ok texts l) :
    LaidOut offset fields (cellsOf offset fields values texts)
      (offset + texts.flatten.length) := by
  induction fields generalizing offset values texts i j k l with
  | nil =>
    obtain ⟨rfl, -⟩ := Reader.pure_eq_ok.1 htexts
    exact .nil _
  | cons f fields ih =>
    unfold readFixed at hvalues
    unfold readTexts at htexts
    cases hkind : f.kind with
    | scalar type =>
      rw [hkind] at hvalues htexts
      obtain ⟨v, _, hv, hvalues⟩ := Reader.bind_eq_ok.1 hvalues
      obtain ⟨rest, _, hrest, hvalues⟩ := Reader.bind_eq_ok.1 hvalues
      obtain ⟨rfl, -⟩ := Reader.pure_eq_ok.1 hvalues
      rw [← Reader.type_of_scalar hv] at hkind
      simp only [cellsOf, hkind]
      exact .cons hkind nofun (ih _ hrest htexts)
    | text =>
      rw [hkind] at hvalues htexts
      obtain ⟨bytes, _, hbytes, htexts⟩ := Reader.bind_eq_ok.1 htexts
      obtain ⟨rest, _, hrest, htexts⟩ := Reader.bind_eq_ok.1 htexts
      obtain ⟨rfl, -⟩ := Reader.pure_eq_ok.1 htexts
      -- A text that was read behind its count is not too long for a capacity.
      have hcount : (UInt32.ofNat bytes.length).toNat = bytes.length := by
        rw [UInt32.toNat_ofNat', Nat.mod_eq_of_lt (Reader.length_of_counted hbytes)]
      simp only [cellsOf, hkind]
      refine .cons ⟨hkind, UInt32.le_refl _⟩ ?_ ?_
      · rintro p ⟨⟩
        rfl
      · rw [List.flatten_cons, List.length_append, ← Nat.add_assoc]
        show LaidOut (offset + (UInt32.ofNat bytes.length).toNat) _ _ _
        rw [hcount]
        exact ih _ hvalues hrest
    | owned core =>
      rw [hkind] at hvalues htexts
      simp only [cellsOf, hkind]
      exact .cons (by rw [Cell.Suits, hkind]; rfl) nofun (ih _ hvalues htexts)

/-! ## Records with the invariant -/

/-- The cells of the record are laid out over its whole buffer. -/
def Sound (r : Record) : Prop := LaidOut 0 r.descriptor.fields r.cells r.buffer.size

theorem sound_create {d : Descriptor} {header : Header} {args : List Value} {r : Record}
    (h : create d header args = .ok r) : r.Sound ∧ r.descriptor = d := by
  unfold create at h
  obtain ⟨-, h⟩ := Outcome.check_eq_ok.1 h
  obtain ⟨⟨cells, size⟩, hcells, h⟩ := Outcome.bind_eq_ok.1 h
  cases h
  exact ⟨laidOut_layOut hcells, rfl⟩

theorem decode_eq_ok {d : Descriptor} {typeId : UInt32} {bytes : List UInt8} {r : Record}
    (h : decode d typeId bytes = .ok r) : ∃ header values texts i j k,
      d.readHeader typeId (Input.ofBytes bytes) = .ok header i ∧
        readFixed d.fields i = .ok values j ∧ readTexts d.fields j = .ok texts k ∧
        r = ⟨d, header, cellsOf 0 d.fields values texts, .ofBytes texts.flatten⟩ := by
  obtain ⟨_, h⟩ := Reader.parse_eq_ok.1 h
  obtain ⟨header, i, hheader, h⟩ := Reader.bind_eq_ok.1 h
  obtain ⟨values, j, hvalues, h⟩ := Reader.bind_eq_ok.1 h
  obtain ⟨texts, k, htexts, h⟩ := Reader.bind_eq_ok.1 h
  obtain ⟨rfl, -⟩ := Reader.pure_eq_ok.1 h
  exact ⟨header, values, texts, i, j, k, hheader, hvalues, htexts, rfl⟩

theorem sound_decode {d : Descriptor} {typeId : UInt32} {bytes : List UInt8} {r : Record}
    (h : decode d typeId bytes = .ok r) : r.Sound ∧ r.descriptor = d := by
  obtain ⟨header, values, texts, _, _, _, -, hvalues, htexts, rfl⟩ := decode_eq_ok h
  have hlaid := laidOut_cellsOf 0 hvalues htexts
  rw [Nat.zero_add] at hlaid
  exact ⟨hlaid, rfl⟩

theorem scalar?_of_cell {r : Record} {source : Nat} {v : ScalarValue}
    (h : r.cells[source]? = some (.scalar v)) : r.scalar? source = some v := by
  rw [scalar?, h]

theorem region_of_cell {r : Record} {source : Nat} {a : Region}
    (h : r.cells[source]? = some (.text a)) : r.region source = a := by
  rw [region, h]

/-- The cell of a text field, with its region. -/
theorem Sound.text_cell {r : Record} (hr : r.Sound) {source : Nat} {f : Field}
    (hf : r.descriptor.fields[source]? = some f) (hkind : f.kind = .text) :
    r.cells[source]? = some (.text (r.region source)) ∧
      (r.region source).length ≤ (r.region source).capacity := by
  obtain ⟨c, hc, hsuits⟩ := LaidOut.cell hr hf
  cases c with
  | scalar v => cases hkind.symm.trans hsuits
  | text region =>
    rw [region_of_cell hc]
    exact ⟨hc, hsuits.2⟩
  | absent => simp [Cell.Suits, hkind, FieldKind.isOwned] at hsuits

/-- The cell of a scalar field, with its value. -/
theorem Sound.scalar_cell {r : Record} (hr : r.Sound) {source : Nat} {f : Field} {type : Scalar}
    (hf : r.descriptor.fields[source]? = some f) (hkind : f.kind = .scalar type) :
    ∃ v, r.cells[source]? = some (.scalar v) ∧ v.type = type := by
  obtain ⟨c, hc, hsuits⟩ := LaidOut.cell hr hf
  cases c with
  | scalar v =>
    cases hkind.symm.trans hsuits
    exact ⟨v, hc, rfl⟩
  | text region => cases hkind.symm.trans hsuits.1
  | absent => simp [Cell.Suits, hkind, FieldKind.isOwned] at hsuits

/-- A step replaces at most one cell, by one that suits the same field and has the same span. -/
theorem Step.cells {r s : Record} (hr : r.Sound) (h : Step r s) :
    s.cells = r.cells ∨ ∃ source f c c', r.descriptor.fields[source]? = some f ∧
      r.cells[source]? = some c ∧ c'.Suits f ∧ c'.span = c.span ∧
      s.cells = r.cells.set source c' := by
  cases h with
  | refused => exact .inl rfl
  | header => exact .inl rfl
  | @scalar source f v hf hkind =>
    obtain ⟨w, hc, -⟩ := hr.scalar_cell hf hkind
    exact .inr ⟨source, f, _, .scalar v, hf, hc, hkind, rfl, rfl⟩
  | @length source f n hf hkind hle =>
    obtain ⟨hc, -⟩ := hr.text_cell hf hkind
    exact .inr ⟨source, f, _, .text { r.region source with length := n }, hf, hc, ⟨hkind, hle⟩,
      rfl, rfl⟩
  | @text source f bytes hf hkind hle =>
    obtain ⟨hc, -⟩ := hr.text_cell hf hkind
    have hlength : UInt32.ofNat bytes.length ≤ (r.region source).capacity := by
      rw [UInt32.le_iff_toNat_le, UInt32.toNat_ofNat']
      exact Nat.le_trans (Nat.mod_le ..) hle
    exact .inr ⟨source, f, _, .text { r.region source with length := .ofNat bytes.length }, hf, hc,
      ⟨hkind, hlength⟩, rfl, rfl⟩

theorem Step.descriptor {r s : Record} (h : Step r s) : s.descriptor = r.descriptor := by
  cases h <;> rfl

theorem Step.size {r s : Record} (h : Step r s) : s.buffer.size = r.buffer.size := by
  cases h <;> rfl

/-- No step moves or resizes a region. -/
theorem Step.spans {r s : Record} (hr : r.Sound) (h : Step r s) :
    s.cells.map Cell.span = r.cells.map Cell.span := by
  rcases h.cells hr with hcells | ⟨source, f, c, c', -, hc, -, hspan, hcells⟩
  · rw [hcells]
  · obtain ⟨hlt, rfl⟩ := List.getElem?_eq_some_iff.1 hc
    rw [hcells, List.map_set, hspan, ← List.getElem_map Cell.span (h := by simpa using hlt),
      List.set_getElem_self]

theorem Step.sound {r s : Record} (h : Step r s) (hr : r.Sound) : s.Sound := by
  unfold Sound
  rw [h.descriptor, h.size]
  rcases h.cells hr with hcells | ⟨source, f, c, c', hf, hc, hsuits, hspan, hcells⟩
  · rw [hcells]
    exact hr
  · rw [hcells]
    exact LaidOut.set hr hf hc hsuits hspan

/-- Every record that a user can hold is sound. -/
theorem Reachable.sound {d : Descriptor} {r : Record} (h : Reachable d r) :
    r.Sound ∧ r.descriptor = d := by
  induction h with
  | create h => exact sound_create h
  | decode h => exact sound_decode h
  | @edit r e _ ih =>
    have hstep := step_edit r e
    exact ⟨hstep.sound ih.1, hstep.descriptor.trans ih.2⟩

end Record

/-! ## Regions back to back -/

/-- The position behind the last byte that a text may use. -/
def Region.stop (a : Region) : Nat := a.offset + a.capacity.toNat

/-- The regions have no byte in common. -/
def Region.Apart (a b : Region) : Prop := a.stop ≤ b.offset ∨ b.stop ≤ a.offset

def totalRoom (regions : List Region) : Nat := (regions.map fun a => a.capacity.toNat).sum

/-- Each region starts where the one before it stops, the first at `start` and after the last
comes `stop`. -/
def BackToBack (start : Nat) : List Region → Nat → Prop
  | [], stop => start = stop
  | a :: rest, stop => a.offset = start ∧ BackToBack a.stop rest stop

namespace BackToBack

variable {start stop : Nat} {regions : List Region}

theorem stop_eq (h : BackToBack start regions stop) : stop = start + totalRoom regions := by
  induction regions generalizing start with
  | nil => exact h.symm
  | cons a rest ih =>
    obtain ⟨rfl, h⟩ := h
    rw [ih h, Region.stop, Nat.add_assoc]
    rfl

theorem offset_eq (h : BackToBack start regions stop) {k : Nat} {a : Region}
    (ha : regions[k]? = some a) : a.offset = start + totalRoom (regions.take k) := by
  induction regions generalizing start k with
  | nil => cases ha
  | cons b rest ih =>
    obtain ⟨rfl, h⟩ := h
    cases k with
    | zero =>
      cases ha
      rfl
    | succ k =>
      rw [ih h ha, Region.stop, Nat.add_assoc]
      rfl

theorem bounds (h : BackToBack start regions stop) {a : Region} (ha : a ∈ regions) :
    start ≤ a.offset ∧ a.stop ≤ stop := by
  induction regions generalizing start with
  | nil => cases ha
  | cons b rest ih =>
    obtain ⟨rfl, h⟩ := h
    rcases List.mem_cons.1 ha with rfl | ha
    · refine ⟨Nat.le_refl _, ?_⟩
      rw [h.stop_eq]
      exact Nat.le_add_right ..
    · obtain ⟨hstart, hstop⟩ := ih h ha
      exact ⟨Nat.le_trans (Nat.le_add_right ..) hstart, hstop⟩

theorem pairwise (h : BackToBack start regions stop) :
    regions.Pairwise fun a b => a.stop ≤ b.offset := by
  induction regions generalizing start with
  | nil => exact .nil
  | cons a rest ih =>
    obtain ⟨rfl, h⟩ := h
    exact .cons (fun b hb => (h.bounds hb).1) (ih h)

end BackToBack

/-- The region of a text. -/
def Cell.region? : Cell → Option Region
  | .text region => some region
  | _ => none

theorem LaidOut.backToBack {start stop : Nat} {fields : List Field} {cells : List Cell}
    (h : LaidOut start fields cells stop) :
    BackToBack start (cells.filterMap Cell.region?) stop := by
  induction h with
  | nil => rfl
  | @cons start _ _ _ c cells hsuits hstart _ ih =>
    cases c with
    | scalar v => exact ih
    | absent => exact ih
    | text region =>
      have hoffset : region.offset = start := hstart _ rfl
      refine ⟨hoffset, ?_⟩
      show BackToBack (region.offset + _) _ _
      rw [hoffset]
      exact ih

namespace Record

/-- The regions by the indices of the text fields are the regions in the cells. -/
theorem Sound.map_region {r : Record} (hr : r.Sound) :
    r.descriptor.textFields.map (fun p => r.region p.1) = r.cells.filterMap Cell.region? := by
  rw [List.map_eq_flatMap, List.filterMap_eq_flatMap_toList]
  apply flatMap_zipIdx 0 (fun f => f.kind == .text) (fun source => [r.region source])
    (fun c => c.region?.toList) (LaidOut.length_eq hr)
  intro source f c hf hc
  rw [Nat.zero_add]
  by_cases hkind : f.kind = .text
  · obtain ⟨hcell, -⟩ := hr.text_cell hf hkind
    rw [hcell] at hc
    cases hc
    simp [hkind, Cell.region?]
  · obtain ⟨c', hc', hsuits⟩ := LaidOut.cell hr hf
    rw [hc] at hc'
    cases hc'
    cases c with
    | text region => exact absurd hsuits.1 hkind
    | scalar v => simp [hkind, Cell.region?]
    | absent => simp [hkind, Cell.region?]

theorem Sound.backToBack {r : Record} (hr : r.Sound) :
    BackToBack 0 (r.descriptor.textFields.map fun p => r.region p.1) r.buffer.size := by
  rw [hr.map_region]
  exact LaidOut.backToBack hr

/-! ## The layout -/

/-- The first `n` bytes of the region at index `source` lie in the region and in the buffer. -/
def Inside (r : Record) (source n : Nat) : Prop :=
  n ≤ (r.region source).capacity.toNat ∧ (r.region source).offset + n ≤ r.buffer.size

/-- `bytes` are the part of the buffer at the start of the region at index `source`. -/
def SliceAt (r : Record) (source : Nat) (bytes : List UInt8) : Prop :=
  r.Inside source bytes.length ∧
    bytes = r.buffer.slice (r.region source).offset bytes.length

/-- How the texts of a record lie in its buffer, and which parts of it the operations touch. -/
structure Layout (r : Record) : Prop where
  /-- A text starts behind the room of all texts before it. -/
  offset_eq : ∀ k p, r.descriptor.textFields[k]? = some p →
    (r.region p.1).offset =
      ((r.descriptor.textFields.take k).map fun q => (r.region q.1).capacity.toNat).sum
  size_eq : r.buffer.size =
    (r.descriptor.textFields.map fun p => (r.region p.1).capacity.toNat).sum
  length_le : ∀ p ∈ r.descriptor.textFields, (r.region p.1).length ≤ (r.region p.1).capacity
  apart : ∀ p ∈ r.descriptor.textFields, ∀ q ∈ r.descriptor.textFields, p ≠ q →
    (r.region p.1).Apart (r.region q.1)
  text_inside : ∀ name bytes, r.text name = .ok bytes →
    ∃ p ∈ r.descriptor.textFields, r.SliceAt p.1 bytes
  get_inside : ∀ name bytes, r.get name = .ok (.text bytes) →
    ∃ p ∈ r.descriptor.textFields, r.SliceAt p.1 bytes
  /-- The texts on the wire. -/
  encode_inside : ∀ p ∈ r.descriptor.textFields, ∃ bytes,
    r.countedBytes p.1 = bigEndian countWidth bytes.length ++ bytes ∧ r.SliceAt p.1 bytes
  setText_inside : ∀ name bytes s, r.setText name bytes = .ok s →
    ∃ p ∈ r.descriptor.textFields, r.Inside p.1 bytes.length ∧
      s.buffer = r.buffer.write (r.region p.1).offset bytes
  /-- No other change writes into the buffer. -/
  edit_inside : ∀ e, (r.edit e).buffer = r.buffer ∨
    ∃ p ∈ r.descriptor.textFields, ∃ bytes, r.Inside p.1 bytes.length ∧
      (r.edit e).buffer = r.buffer.write (r.region p.1).offset bytes

theorem Sound.offset_eq {r : Record} (hr : r.Sound) {k : Nat} {p : Nat × Field}
    (hp : r.descriptor.textFields[k]? = some p) :
    (r.region p.1).offset =
      ((r.descriptor.textFields.take k).map fun q => (r.region q.1).capacity.toNat).sum := by
  have hget : (r.descriptor.textFields.map fun q => r.region q.1)[k]? = some (r.region p.1) := by
    rw [List.getElem?_map, hp]
    rfl
  rw [hr.backToBack.offset_eq hget, Nat.zero_add, totalRoom, ← List.map_take, List.map_map]
  rfl

theorem Sound.size_eq {r : Record} (hr : r.Sound) :
    r.buffer.size = (r.descriptor.textFields.map fun p => (r.region p.1).capacity.toNat).sum := by
  rw [hr.backToBack.stop_eq, Nat.zero_add, totalRoom, List.map_map]
  rfl

theorem Sound.apart {r : Record} (hr : r.Sound) {p q : Nat × Field}
    (hp : p ∈ r.descriptor.textFields) (hq : q ∈ r.descriptor.textFields) (hne : p ≠ q) :
    (r.region p.1).Apart (r.region q.1) := by
  have hpair : r.descriptor.textFields.Pairwise fun p q =>
      (r.region p.1).Apart (r.region q.1) :=
    (List.pairwise_map.1 hr.backToBack.pairwise).imp Or.inl
  have hsymm : Std.Symm fun p q : Nat × Field => (r.region p.1).Apart (r.region q.1) :=
    ⟨fun _ _ => Or.symm⟩
  exact hpair.forall hp hq hne

/-- What fits into the region of a text lies in the buffer. -/
theorem Sound.inside {r : Record} (hr : r.Sound) {p : Nat × Field} {n : Nat}
    (hp : p ∈ r.descriptor.textFields) (hn : n ≤ (r.region p.1).capacity.toNat) :
    r.Inside p.1 n := by
  have hstop := (hr.backToBack.bounds (List.mem_map.2 ⟨p, hp, rfl⟩)).2
  exact ⟨hn, Nat.le_trans (Nat.add_le_add_left hn _) hstop⟩

theorem Sound.sliceAt_textAt {r : Record} (hr : r.Sound) {p : Nat × Field}
    (hp : p ∈ r.descriptor.textFields) : r.SliceAt p.1 (r.textAt p.1) := by
  refine ⟨hr.inside hp ?_, ?_⟩
  · rw [textAt, Buffer.length_slice]
    exact Nat.min_le_right ..
  · rw [textAt, Buffer.length_slice]

theorem text_eq_ok {r : Record} {name : String} {bytes : List UInt8} (h : r.text name = .ok bytes) :
    ∃ p ∈ r.descriptor.textFields, bytes = r.textAt p.1 := by
  obtain ⟨source, hsource, h⟩ := Outcome.bind_eq_ok.1 h
  cases h
  obtain ⟨f, hfind, hkind⟩ := textSource_eq_ok hsource
  exact ⟨(source, f), Descriptor.mem_textFields.2
    ⟨(Descriptor.of_field?_eq_some hfind).1, hkind⟩, rfl⟩

theorem get_eq_ok_text {r : Record} {name : String} {bytes : List UInt8}
    (h : r.get name = .ok (.text bytes)) :
    ∃ p ∈ r.descriptor.textFields, bytes = r.textAt p.1 := by
  obtain ⟨slot, hslot, h⟩ := Outcome.bind_eq_ok.1 h
  obtain ⟨_, f, hget, hmem⟩ := Descriptor.of_slot?_eq_some (slot_eq_ok hslot)
  have hkind := Field.kind_of_mem_slots hmem
  split at h <;> rename_i hrole <;> rw [hrole] at hkind
  · split at h <;> cases h
  · cases h
    exact ⟨(slot.source, f), Descriptor.mem_textFields.2 ⟨hget, hkind⟩, rfl⟩
  · cases h
  · cases h

theorem Step.inside {r s : Record} (hr : r.Sound) (h : Step r s) :
    s.buffer = r.buffer ∨
      ∃ p ∈ r.descriptor.textFields, ∃ bytes, r.Inside p.1 bytes.length ∧
        s.buffer = r.buffer.write (r.region p.1).offset bytes := by
  cases h with
  | @text source f bytes hf hkind hle =>
    have hp : (source, f) ∈ r.descriptor.textFields := Descriptor.mem_textFields.2 ⟨hf, hkind⟩
    exact .inr ⟨_, hp, bytes, hr.inside hp hle, rfl⟩
  | _ => exact .inl rfl

theorem Sound.layout {r : Record} (hr : r.Sound) : r.Layout where
  offset_eq _ _ hp := hr.offset_eq hp
  size_eq := hr.size_eq
  length_le _ hp :=
    have ⟨hf, hkind⟩ := Descriptor.mem_textFields.1 hp
    (hr.text_cell hf hkind).2
  apart _ hp _ hq hne := hr.apart hp hq hne
  text_inside name bytes h := by
    obtain ⟨p, hp, rfl⟩ := text_eq_ok h
    exact ⟨p, hp, hr.sliceAt_textAt hp⟩
  get_inside name bytes h := by
    obtain ⟨p, hp, rfl⟩ := get_eq_ok_text h
    exact ⟨p, hp, hr.sliceAt_textAt hp⟩
  encode_inside p hp := ⟨r.textAt p.1, rfl, hr.sliceAt_textAt hp⟩
  setText_inside name bytes s h := by
    obtain ⟨source, f, hfind, hkind, hle, rfl⟩ := setText_eq_ok h
    have hp : (source, f) ∈ r.descriptor.textFields :=
      Descriptor.mem_textFields.2 ⟨(Descriptor.of_field?_eq_some hfind).1, hkind⟩
    exact ⟨_, hp, hr.inside hp hle, rfl⟩
  edit_inside e := (step_edit r e).inside hr

/-- Equal spans are equal offsets and capacities. -/
theorem region_of_spans {r s : Record} (h : s.cells.map Cell.span = r.cells.map Cell.span)
    (source : Nat) :
    (s.region source).offset = (r.region source).offset ∧
      (s.region source).capacity = (r.region source).capacity := by
  have hspan : s.cells[source]?.map Cell.span = r.cells[source]?.map Cell.span := by
    rw [← List.getElem?_map, ← List.getElem?_map, h]
  have hregion (r : Record) : (r.region source).offset =
      (((r.cells[source]?.map Cell.span).join).getD (0, 0)).1 ∧
      (r.region source).capacity.toNat =
        (((r.cells[source]?.map Cell.span).join).getD (0, 0)).2 := by
    unfold Record.region
    split
    · rename_i region hc
      simp [hc, Cell.span]
    · rename_i hc
      cases hcell : r.cells[source]? with
      | none => simp
      | some c =>
        cases c with
        | text region => exact absurd hcell (hc region)
        | _ => simp [Cell.span]
  refine ⟨?_, UInt32.toNat_inj.1 ?_⟩
  · rw [(hregion s).1, (hregion r).1, hspan]
  · rw [(hregion s).2, (hregion r).2, hspan]

/-- **Records keep their layout.** Whatever a user does to a record, its texts lie back to back in
its buffer, every operation stays inside the region of one text, and no change moves or resizes a
region. -/
theorem layout_of_reachable {d : Descriptor} {r : Record} (h : Reachable d r) :
    r.descriptor = d ∧ r.Layout ∧ ∀ e,
      (r.edit e).buffer.size = r.buffer.size ∧ ∀ source,
        ((r.edit e).region source).offset = (r.region source).offset ∧
          ((r.edit e).region source).capacity = (r.region source).capacity := by
  obtain ⟨hr, hd⟩ := h.sound
  refine ⟨hd, hr.layout, fun e => ⟨(step_edit r e).size, fun source => ?_⟩⟩
  exact region_of_spans ((step_edit r e).spans hr) source

/-- A record of `Descriptor.mixed`: three bytes were put into a text, its length was cut to two,
a text that is too long was refused, and the header was changed. -/
def mixed : Record :=
  edits ⟨Descriptor.mixed, ⟨7, 256, 0, 3⟩,
    [.text ⟨0, 0, 4⟩, .scalar (.i16 (-2)), .text ⟨4, 0, 1⟩], .zeroed 5⟩
    [.setText "a" [65, 66, 67], .set "Alength" (.scalar (.u32 2)), .setText "c" [1, 2],
      .header ⟨7, 256, 9, 3⟩]

theorem reachable_mixed : Reachable Descriptor.mixed mixed := by
  have hcreate : create Descriptor.mixed ⟨7, 256, 0, 3⟩
      [.scalar (.u32 4), .scalar (.i16 (-2)), .scalar (.u32 1)] =
      .ok ⟨Descriptor.mixed, ⟨7, 256, 0, 3⟩,
        [.text ⟨0, 0, 4⟩, .scalar (.i16 (-2)), .text ⟨4, 0, 1⟩], .zeroed 5⟩ := rfl
  exact (Reachable.create hcreate).edits _

theorem layout_of_mixed : Reachable Descriptor.mixed mixed ∧ mixed.Layout ∧
    (mixed.edit (.setText "a" [1, 2, 3, 4])).buffer.size = 5 ∧
    ((mixed.edit (.setText "a" [1, 2, 3, 4])).region 2).offset = 4 := by
  obtain ⟨-, hlayout, hedit⟩ := layout_of_reachable reachable_mixed
  obtain ⟨hsize, hregion⟩ := hedit (.setText "a" [1, 2, 3, 4])
  exact ⟨reachable_mixed, hlayout, hsize, (hregion 2).1⟩

end Record

end WireSchema
