import Mathlib.Data.List.Nodup
import WireSchema.Proofs.Descriptor
import WireSchema.Proofs.Outcome
import WireSchema.Schema.Build

/-!
# Descriptors that are accepted

`Descriptor.Consistent` is what the check of a descriptor against its targets leaves: member names
do not repeat, a record holds no owned values, and on the host only the last field is read up to the
end of the stream. The check accepts exactly the consistent descriptors (`error?_eq_none_iff`), so
whatever is built from a declaration is consistent (`consistent_of_build`).
-/

namespace WireSchema

/-! ## Repetitions -/

theorem firstRepeat_eq_none_iff {seen names : List String} :
    firstRepeat seen names = none ↔ names.Nodup ∧ ∀ name ∈ names, name ∉ seen := by
  induction names generalizing seen with
  | nil => simp [firstRepeat]
  | cons name rest ih =>
    unfold firstRepeat
    by_cases hseen : name ∈ seen
    · rw [if_pos (List.contains_iff_mem.2 hseen)]
      constructor
      · intro h
        cases h
      · intro h
        exact absurd hseen (h.2 name List.mem_cons_self)
    · rw [if_neg (mt List.contains_iff_mem.1 hseen), ih, List.nodup_cons]
      constructor
      · rintro ⟨hrest, hnew⟩
        refine ⟨⟨fun hmem => hnew name hmem (by simp), hrest⟩, ?_⟩
        intro other hother
        rcases List.mem_cons.1 hother with rfl | hother
        · exact hseen
        · exact fun h => hnew other hother (List.mem_append_left _ h)
      · rintro ⟨⟨hname, hrest⟩, hnew⟩
        refine ⟨hrest, fun other hother h => ?_⟩
        rcases List.mem_append.1 h with h | h
        · exact hnew other (List.mem_cons_of_mem _ hother) h
        · rw [List.mem_singleton.1 h] at hother
          exact hname hother

namespace Descriptor

/-! ## Consistency -/

/-- The fields of a descriptor fit its targets. -/
structure Consistent (d : Descriptor) : Prop where
  members_nodup : d.members.Nodup
  embedded : d.targets.embedded = true → ∀ f ∈ d.fields, f.kind.isOwned = false
  host : d.targets.host = true → ∀ f ∈ d.fields.dropLast, f.kind.streamDelimited = false

theorem find?_if_eq_none_iff {b : Bool} {p : Field → Bool} {fields : List Field} :
    (if b then fields.find? p else none) = none ↔ (b = true → ∀ f ∈ fields, p f = false) := by
  cases b with
  | true => simp
  | false => simp

theorem error?_eq_none_iff {d : Descriptor} : d.error? = none ↔ d.Consistent := by
  constructor
  · intro h
    unfold error? at h
    split at h
    · cases h
    · rename_i hrepeat
      split at h
      · cases h
      · rename_i howned
        split at h
        · cases h
        · rename_i hdelimited
          exact ⟨(firstRepeat_eq_none_iff.1 hrepeat).1, find?_if_eq_none_iff.1 howned,
            find?_if_eq_none_iff.1 hdelimited⟩
  · intro h
    have hrepeat : firstRepeat [] d.members = none :=
      firstRepeat_eq_none_iff.2 ⟨h.members_nodup, by simp⟩
    unfold error? delimitedNotLast?
    rw [hrepeat, find?_if_eq_none_iff.2 h.embedded, find?_if_eq_none_iff.2 h.host]

/-- Different members have different names. -/
theorem Consistent.names_nodup {d : Descriptor} (h : d.Consistent) :
    (d.fields.map Field.name).Nodup := by
  have hmembers : (d.fields.map Field.member).Nodup :=
    (List.nodup_append.1 h.members_nodup).1
  apply List.Nodup.of_map Naming.memberName
  rwa [List.map_map]

/-! ## Slots of a record -/

/-- Leaving the counters out, the slots are the fields that are not owned. -/
theorem map_member_slotsFrom (start : Nat) (fields : List Field) :
    ((Field.slotsFrom start fields).filter fun s => !s.isCounter).map Slot.member =
      (fields.filter fun f => !f.kind.isOwned).map Field.member := by
  induction fields generalizing start with
  | nil => rfl
  | cons f fields ih =>
    rw [Field.slotsFrom, List.filter_append, List.map_append, ih]
    cases hkind : f.kind <;>
      simp [Field.slots, hkind, FieldKind.isOwned, Slot.isCounter, Slot.member, Field.member]

section Slots

variable {d : Descriptor} (h : d.Consistent) (hembedded : d.targets.embedded = true)
include h hembedded

/-- No two slots of a record have one member. -/
theorem Consistent.slot_members_nodup : (d.slots.map Slot.member).Nodup := by
  have hmembers := h.members_nodup
  unfold members at hmembers
  simp only [hembedded, Bool.true_and] at hmembers
  have hperm : (d.slots.map Slot.member).Perm
      ((d.slots.filter fun s => !s.isCounter).map Slot.member ++
        (d.slots.filter Slot.isCounter).map Slot.member) := by
    rw [← List.map_append]
    refine (List.Perm.trans ?_ List.perm_append_comm).map _
    exact (List.filter_append_perm _ _).symm
  refine hperm.nodup_iff.2 (hmembers.sublist (List.Sublist.append_right ?_ _))
  rw [slots, map_member_slotsFrom]
  exact List.filter_sublist.map _

theorem Consistent.slot_names_nodup : (d.slots.map Slot.name).Nodup := by
  have hmembers := h.slot_members_nodup hembedded
  apply List.Nodup.of_map Naming.memberName
  rwa [List.map_map]

/-- The name of a slot finds it. -/
theorem Consistent.slot?_name {s : Slot} (hs : s ∈ d.slots) : d.slot? s.name = some s := by
  cases hfind : d.slot? s.name with
  | none =>
    have hno := List.find?_eq_none.1 hfind s hs
    simp at hno
  | some t =>
    have hname : t.name = s.name := by simpa using List.find?_some hfind
    have ht : t ∈ d.slots := List.mem_of_find?_eq_some hfind
    rw [List.inj_on_of_nodup_map (h.slot_names_nodup hembedded) ht hs hname]

end Slots

/-! ## Building -/

/-- What is built from a declaration holds what it says, and passed the check. -/
theorem ofDeclaration_eq_ok {config : Config} {interface : Interface} {location : Location}
    {declaration : Declaration} {d : Descriptor}
    (h : ofDeclaration config interface location declaration = .ok d) :
    ∃ fields, (declaration.members.mapM fun m =>
        (Field.build config m.1 m.2).mapError (SchemaError.malformed location ·)) = .ok fields ∧
      d = ⟨declaration.name, interface.name, interface.targets, fields, declaration.includes,
        declaration.internal, location⟩ ∧ d.Consistent := by
  unfold ofDeclaration at h
  obtain ⟨-, h⟩ := Outcome.check_eq_ok.1 h
  obtain ⟨fields, hfields, h⟩ := Outcome.bind_eq_ok.1 h
  dsimp only at h
  split at h
  · cases h
  · cases h
    exact ⟨fields, hfields, rfl, error?_eq_none_iff.1 ‹_›⟩

section Build

variable {config : Config} {interface : Interface} {location : Location} {text : String}
  {d : Descriptor}

/-- What is built from a declaration is consistent. -/
theorem consistent_of_build (h : build config interface location text = .ok d) :
    d.Consistent ∧ d.targets = interface.targets := by
  obtain ⟨declaration, -, h⟩ := Outcome.bind_eq_ok.1 h
  obtain ⟨fields, -, rfl, hconsistent⟩ := ofDeclaration_eq_ok h
  exact ⟨hconsistent, rfl⟩

theorem interface_of_build (h : build config interface location text = .ok d) :
    d.interface = interface.name := by
  obtain ⟨declaration, -, h⟩ := Outcome.bind_eq_ok.1 h
  obtain ⟨fields, -, rfl, -⟩ := ofDeclaration_eq_ok h
  rfl

theorem isIdentifier_of_build (h : build config interface location text = .ok d) :
    Naming.isIdentifier d.name = true := by
  obtain ⟨declaration, -, h⟩ := Outcome.bind_eq_ok.1 h
  obtain ⟨fields, -, rfl, -⟩ := ofDeclaration_eq_ok h
  unfold ofDeclaration at h
  obtain ⟨hname, -⟩ := Outcome.check_eq_ok.1 h
  simpa using hname

end Build

/-- A record message with a scalar between two texts. -/
def mixed : Descriptor :=
  { name := "M"
    interface := "F"
    targets := ⟨false, true⟩
    fields :=
      [⟨"a", "std::string", .text⟩, ⟨"b", "int16_t", .scalar .i16⟩, ⟨"c", "std::string", .text⟩]
    includes := []
    internal := false
    location := ⟨"m", 2⟩ }

theorem build_mixed : build {} (.empty "F" ⟨false, true⟩ ⟨"m", 1⟩) ⟨"m", 2⟩
    "M --member std::string a --member int16_t b --member std::string c" = .ok mixed :=
  Outcome.of_toOption (by decide +kernel)

/-- A host message with a float, an owned number and a foreign object behind them. -/
def streamed : Descriptor :=
  { name := "H"
    interface := "G"
    targets := ⟨true, false⟩
    fields :=
      [⟨"a", "float", .scalar .f32⟩, ⟨"b", "std::unique_ptr<uint16_t>", .owned (.scalar .u16)⟩,
       ⟨"c", "std::unique_ptr<N::T>", .owned (.foreign "N::T")⟩]
    includes := []
    internal := false
    location := ⟨"m", 2⟩ }

theorem build_streamed : build {} (.empty "G" ⟨true, false⟩ ⟨"m", 1⟩) ⟨"m", 2⟩
    ("H --member float a --member std::unique_ptr<uint16_t> b " ++
      "--member std::unique_ptr<N::T> c") = .ok streamed :=
  Outcome.of_toOption (by decide +kernel)

end Descriptor

end WireSchema
