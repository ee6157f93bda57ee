import WireSchema.Descriptor
import WireSchema.Proofs.Naming

/-!
# Fields, indices and slots

A descriptor refers to its fields by their indices: the lists of scalar and of text fields carry
them, and every slot has the index of the field that it belongs to. The statements here turn all of
these into one form, `d.fields[source]? = some f`.

`flatMap_zipIdx` is for the passes over a list that runs along the fields, one item per field: to
collect something for the indices of some fields is to collect it from the items.
-/

namespace WireSchema

namespace Descriptor

variable {d : Descriptor} {source : Nat} {f : Field}

/-! ## Indices -/

theorem mem_indexed {p : Nat × Field} : p ∈ d.indexed ↔ d.fields[p.1]? = some p.2 := by
  rw [indexed, List.mem_map]
  constructor
  · rintro ⟨q, hq, rfl⟩
    exact List.mem_zipIdx_iff_getElem?.1 hq
  · intro h
    exact ⟨(p.2, p.1), List.mk_mem_zipIdx_iff_getElem?.2 h, rfl⟩

theorem mem_fixedFields {p : Nat × Field} :
    p ∈ d.fixedFields ↔ d.fields[p.1]? = some p.2 ∧ p.2.kind.isScalar = true := by
  rw [fixedFields, List.mem_filter, mem_indexed]

theorem of_mem_fixedFields {p : Nat × Field} (h : p ∈ d.fixedFields) :
    d.fields[p.1]? = some p.2 ∧ ∃ type, p.2.kind = .scalar type := by
  obtain ⟨hf, hscalar⟩ := mem_fixedFields.1 h
  refine ⟨hf, ?_⟩
  cases hkind : p.2.kind with
  | scalar type => exact ⟨type, rfl⟩
  | text => simp [hkind, FieldKind.isScalar] at hscalar
  | owned core => simp [hkind, FieldKind.isScalar] at hscalar

theorem mem_textFields {p : Nat × Field} :
    p ∈ d.textFields ↔ d.fields[p.1]? = some p.2 ∧ p.2.kind = .text := by
  rw [textFields, List.mem_filter, mem_indexed, beq_iff_eq]

theorem of_field?_eq_some {name : String} (h : d.field? name = some (source, f)) :
    d.fields[source]? = some f ∧ f.name = name := by
  refine ⟨mem_indexed.1 (List.mem_of_find?_eq_some h), ?_⟩
  simpa using List.find?_some h

/-- The name of a field finds it when no two fields have one name. -/
theorem field?_name (hd : (d.fields.map Field.name).Nodup) (h : d.fields[source]? = some f) :
    d.field? f.name = some (source, f) := by
  have hmem : (source, f) ∈ d.indexed := mem_indexed.2 h
  cases hfind : d.field? f.name with
  | none =>
    have hno := List.find?_eq_none.1 hfind (source, f) hmem
    simp at hno
  | some p =>
    obtain ⟨source', f'⟩ := p
    obtain ⟨hget, hname⟩ := of_field?_eq_some hfind
    -- Both indices hold the same name, which stands there only once.
    have hsame : source' = source := by
      have hlt : source' < (d.fields.map Field.name).length := by
        rw [List.length_map]
        exact (List.getElem?_eq_some_iff.1 hget).1
      apply (List.getElem?_inj hlt hd).1
      simp [hget, h, hname]
    subst hsame
    rw [hget] at h
    rw [Option.some.inj h]

end Descriptor

/-! ## Slots -/

/-- The parts of the slots that a record has for a field, in their order. -/
def FieldKind.slotRoles : FieldKind → List SlotRole
  | .scalar _ => [.value]
  | .text => [.payload, .length, .capacity]
  | .owned _ => []

/-- What the slot with a given part is called. -/
def Field.slotName (f : Field) : SlotRole → String
  | .value | .payload => f.name
  | .length => f.lengthName
  | .capacity => f.capacityName

theorem Field.map_slots (source : Nat) (f : Field) :
    (f.slots source).map (fun s => (s.source, s.role, s.name)) =
      f.kind.slotRoles.map fun role => (source, role, f.slotName role) := by
  rw [slots]
  cases f.kind with
  | scalar type => rfl
  | text => rfl
  | owned core => rfl

theorem Field.name_of_mem_slots {source : Nat} {f : Field} {s : Slot} (h : s ∈ f.slots source) :
    s.name = f.slotName s.role := by
  have hmem : (s.source, s.role, s.name) ∈
      (f.slots source).map fun s => (s.source, s.role, s.name) := List.mem_map_of_mem h
  rw [map_slots] at hmem
  obtain ⟨role, -, heq⟩ := List.mem_map.1 hmem
  rw [Prod.mk.injEq, Prod.mk.injEq] at heq
  rw [← heq.2.2, heq.2.1]

/-- The slots of a field are called like it, or are counters with its name in theirs. -/
theorem Field.forall_mem_slots {source : Nat} {f : Field} {P : String → Prop} (hname : P f.name)
    (hcounter : ∀ {ending : String}, Naming.IsWord ending → P (Naming.titleCase f.name ++ ending)) :
    ∀ s ∈ f.slots source, P s.name := by
  intro s hs
  rw [name_of_mem_slots hs]
  cases s.role with
  | value => exact hname
  | payload => exact hname
  | length => exact hcounter (Naming.isWord_ofList _ (by decide))
  | capacity => exact hcounter (Naming.isWord_ofList _ (by decide))

namespace Descriptor

variable {d : Descriptor} {source : Nat} {f : Field}

theorem source_of_mem_slots {s : Slot} (h : s ∈ f.slots source) : s.source = source := by
  unfold Field.slots at h
  split at h
  · simp_all
  · simp only [List.mem_cons, List.not_mem_nil, or_false] at h
    rcases h with rfl | rfl | rfl <;> rfl
  · simp at h

theorem mem_slotsFrom {s : Slot} {start : Nat} {fields : List Field} :
    s ∈ Field.slotsFrom start fields ↔
      ∃ i f, fields[i]? = some f ∧ s ∈ Field.slots (start + i) f := by
  induction fields generalizing start with
  | nil => simp [Field.slotsFrom]
  | cons g fields ih =>
    rw [Field.slotsFrom, List.mem_append, ih]
    constructor
    · rintro (h | ⟨i, f, hget, h⟩)
      · exact ⟨0, g, rfl, h⟩
      · exact ⟨i + 1, f, hget, by rwa [Nat.add_right_comm] at h⟩
    · rintro ⟨i, f, hget, h⟩
      cases i with
      | zero =>
        cases hget
        exact .inl h
      | succ i => exact .inr ⟨i, f, hget, by rwa [Nat.add_right_comm]⟩

theorem mem_slots_of_mem (hf : d.fields[source]? = some f) {s : Slot} (hs : s ∈ f.slots source) :
    s ∈ d.slots :=
  mem_slotsFrom.2 ⟨source, f, hf, by rwa [Nat.zero_add]⟩

/-- A slot belongs to the field that it names by index. -/
theorem exists_of_mem_slots {s : Slot} (h : s ∈ d.slots) :
    ∃ f, d.fields[s.source]? = some f ∧ s ∈ f.slots s.source := by
  obtain ⟨i, f, hget, hs⟩ := mem_slotsFrom.1 h
  rw [Nat.zero_add] at hs
  have hsource := source_of_mem_slots hs
  subst hsource
  exact ⟨f, hget, hs⟩

/-- The slots with the index of a field as their source are those of the field. -/
theorem filter_slotsFrom {fields : List Field} {i : Nat} (h : fields[i]? = some f) (start : Nat) :
    (Field.slotsFrom start fields).filter (·.source == start + i) = f.slots (start + i) := by
  induction fields generalizing start i with
  | nil => cases h
  | cons g fields ih =>
    rw [Field.slotsFrom, List.filter_append]
    cases i with
    | zero =>
      obtain rfl : g = f := Option.some.inj h
      rw [List.filter_eq_self.2, List.filter_eq_nil_iff.2, List.append_nil]
      · rfl
      · intro s hs
        obtain ⟨i, f, -, hs⟩ := mem_slotsFrom.1 hs
        simp only [source_of_mem_slots hs, beq_iff_eq]
        omega
      · intro s hs
        simp [source_of_mem_slots hs]
    | succ i =>
      have hrest := ih h (start + 1)
      rw [Nat.add_right_comm, Nat.add_assoc] at hrest
      rw [hrest, List.filter_eq_nil_iff.2, List.nil_append]
      intro s hs
      simp [source_of_mem_slots hs]

/-- What is found by its role is found among the slots of the field. -/
theorem slotOf?_of_field (hf : d.fields[source]? = some f) (role : SlotRole) :
    d.slotOf? source role = (f.slots source).find? (·.role == role) := by
  have hslots := filter_slotsFrom hf 0
  rw [Nat.zero_add] at hslots
  rw [slotOf?, slotsFor, slots, hslots]

theorem mem_of_slotOf?_eq_some {role : SlotRole} {s : Slot} (h : d.slotOf? source role = some s) :
    s ∈ d.slots :=
  List.mem_of_mem_filter (List.mem_of_find?_eq_some h)

theorem of_slot?_eq_some {name : String} {s : Slot} (h : d.slot? name = some s) :
    s.name = name ∧ ∃ f, d.fields[s.source]? = some f ∧ s ∈ f.slots s.source :=
  ⟨by simpa using List.find?_some h, exists_of_mem_slots (List.mem_of_find?_eq_some h)⟩

end Descriptor

/-! ## Passes along the fields -/

/-- Collecting from the items that run along `fields`, or by index from the fields that `select`
picks. The indices count from `start`. -/
theorem flatMap_zipIdx {ι α : Type} {fields : List Field} {items : List ι} (start : Nat)
    (select : Field → Bool) (byIndex : Nat → List α) (collect : ι → List α)
    (hlen : fields.length = items.length)
    (h : ∀ i f item, fields[i]? = some f → items[i]? = some item →
      (if select f then byIndex (start + i) else []) = collect item) :
    (((fields.zipIdx start).map fun p => (p.2, p.1)).filter (select ·.2)).flatMap
      (byIndex ·.1) = items.flatMap collect := by
  induction fields generalizing items start with
  | nil =>
    cases items with
    | nil => rfl
    | cons item items => simp at hlen
  | cons f fields ih =>
    cases items with
    | nil => simp at hlen
    | cons item items =>
      have hhead := h 0 f item rfl rfl
      have htail := ih (start + 1) (by simpa using hlen) fun i g j hg hj => by
        rw [Nat.add_assoc, Nat.add_comm 1]
        exact h (i + 1) g j hg hj
      rw [List.zipIdx_cons, List.map_cons, List.filter_cons, List.flatMap_cons, ← htail, ← hhead]
      by_cases hs : select f = true <;> simp [hs]

end WireSchema
