import WireSchema.Proofs.Schema.Acceptance

/-!
# Slots of accepted messages

A record has one slot for a scalar, three for a text and none for an owned value. Generated code
refers to a slot in three ways: by its name, by the member that holds it and by its accessors.

**Theorem (`slots_of_build`).** The slots of a message that is built from a declaration run along
the declared members. All that they are called by are identifiers, and for a record no two slots
share a name, a member or an accessor.

The check of a declaration compares members only. Names and accessors differ with them: a member is
its accessor behind a letter, and the accessor is the name in title case.
-/

namespace WireSchema

/-- All that generated code calls the slot by are identifiers. -/
structure Slot.Spelled (s : Slot) : Prop where
  name : Naming.IsIdentifier s.name
  member : Naming.IsIdentifier s.member
  accessor : Naming.IsIdentifier s.accessor

theorem Slot.spelled {s : Slot} (h : Naming.IsIdentifier s.name) : s.Spelled :=
  ⟨h, Naming.isIdentifier_memberName h.1, h.titleCase⟩

theorem Field.map_slotsFrom (start : Nat) (fields : List Field) :
    (slotsFrom start fields).map (fun s => (s.source, s.role, s.name)) =
      ((fields.zipIdx start).map fun p => (p.2, p.1)).flatMap fun p =>
        p.2.kind.slotRoles.map fun role => (p.1, role, p.2.slotName role) := by
  induction fields generalizing start with
  | nil => rfl
  | cons f fields ih =>
    rw [slotsFrom, List.map_append, map_slots, ih, List.zipIdx_cons, List.map_cons,
      List.flatMap_cons]

namespace Descriptor

variable {config : Config} {interface : Interface} {location : Location} {text : String}
  {d : Descriptor}

/-- No two slots of a record have one accessor. -/
theorem Consistent.slot_accessors_nodup (h : d.Consistent) (hembedded : d.targets.embedded = true) :
    (d.slots.map Slot.accessor).Nodup := by
  have hmembers := h.slot_members_nodup hembedded
  apply List.Nodup.of_map ("m" ++ ·)
  rwa [List.map_map]

theorem spelled_of_mem_slots (h : ∀ f ∈ d.fields, f.BuiltBy config) {s : Slot}
    (hs : s ∈ d.slots) : s.Spelled := by
  obtain ⟨f, hf, hs⟩ := exists_of_mem_slots hs
  have hname : Naming.IsIdentifier f.name := (h f (List.mem_of_getElem? hf)).1
  exact Slot.spelled (Field.forall_mem_slots hname hname.titleCase.append s hs)

/-- **The slots of a message.** They run along the members of its declaration, can be spelled in
generated code, and are told apart there by each of their three names. -/
theorem slots_of_build (hbuild : build config interface location text = .ok d) :
    (∃ declaration, Declaration.parse location text = .ok declaration ∧
      declaration.members = d.fields.map Field.declared ∧ ∀ f ∈ d.fields, f.BuiltBy config) ∧
    d.slots.map (fun s => (s.source, s.role, s.name)) = (d.indexed.flatMap fun p =>
      p.2.kind.slotRoles.map fun role => (p.1, role, p.2.slotName role)) ∧
    (∀ s ∈ d.slots, s.Spelled) ∧
    (interface.targets.embedded = true → (d.slots.map Slot.name).Nodup ∧
      (d.slots.map Slot.member).Nodup ∧ (d.slots.map Slot.accessor).Nodup) := by
  obtain ⟨declaration, hparse, -, hmembers, hbuilt⟩ := declared_of_build hbuild
  obtain ⟨hc, htargets⟩ := consistent_of_build hbuild
  refine ⟨⟨declaration, hparse, hmembers, hbuilt⟩, Field.map_slotsFrom 0 d.fields,
    fun s hs => spelled_of_mem_slots hbuilt hs, fun he => ?_⟩
  rw [← htargets] at he
  exact ⟨hc.slot_names_nodup he, hc.slot_members_nodup he, hc.slot_accessors_nodup he⟩

/-- The slots of a record with a scalar between two texts. -/
theorem slots_of_build_mixed :
    build {} (.empty "F" ⟨false, true⟩ ⟨"m", 1⟩) ⟨"m", 2⟩
      "M --member std::string a --member int16_t b --member std::string c" = .ok mixed ∧
    mixed.slots.map (fun s => (s.source, s.role, s.name)) =
      [(0, .payload, "a"), (0, .length, "Alength"), (0, .capacity, "Abufferlength"),
       (1, .value, "b"),
       (2, .payload, "c"), (2, .length, "Clength"), (2, .capacity, "Cbufferlength")] ∧
    (∀ s ∈ mixed.slots, s.Spelled) ∧ (mixed.slots.map Slot.name).Nodup ∧
    (mixed.slots.map Slot.member).Nodup ∧ (mixed.slots.map Slot.accessor).Nodup := by
  obtain ⟨-, hslots, hspelled, hnodup⟩ := slots_of_build build_mixed
  refine ⟨build_mixed, ?_, hspelled, hnodup rfl⟩
  rw [hslots]
  decide +kernel

end Descriptor

end WireSchema
