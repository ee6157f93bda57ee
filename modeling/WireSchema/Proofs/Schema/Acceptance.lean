import WireSchema.Proofs.Schema.Build
import WireSchema.Proofs.Schema.TypeNames

/-!
# Declarations that are accepted

A declaration that can be read may still be refused: for a name that is no identifier, for a type
that is not known, for two members of one name, or for a field that one of its targets cannot carry.

**Theorem (`build_iff_admissible`).** A message is built from a declaration exactly if the
declaration is admissible. This is a property of the words of the declaration: names are compared
without regard to case, and the counters of a text `a` are `alength` and `abufferlength`.

The check itself compares the members of generated code, which are names in title case, for the
counters even twice. `Descriptor.members_eq` says that these are the members of the plain names, and
members of words are different exactly if the words differ in more than case
(`Naming.nodup_map_memberName`). What the targets can carry depends on the kinds of the fields, and
these follow from the types (`FieldKind.isOwned_iff`, `FieldKind.streamDelimited_iff`).
-/

namespace WireSchema

/-! ## Admissible declarations -/

/-- The counters that a record keeps for its texts, by plain names. -/
def counterNames (members : List (String × String)) : List String :=
  (members.filter (·.1 == textType)).flatMap fun m => [m.2 ++ "length", m.2 ++ "bufferlength"]

theorem counterNames_text {m : String × String} (h : m.1 = textType)
    (members : List (String × String)) : counterNames (m :: members) =
      [m.2 ++ "length", m.2 ++ "bufferlength"] ++ counterNames members := by
  rw [counterNames, List.filter_cons_of_pos (by simpa using h), List.flatMap_cons, counterNames]

theorem counterNames_other {m : String × String} (h : m.1 ≠ textType)
    (members : List (String × String)) : counterNames (m :: members) = counterNames members := by
  rw [counterNames, List.filter_cons_of_neg (by simpa using h), counterNames]

/-- The members of a declaration, types first, can be carried by the targets. -/
structure Targets.Fits (config : Config) (targets : Targets) (members : List (String × String)) :
    Prop where
  names_apart : (members.map Prod.snd).Pairwise Naming.Apart
  counters_apart : targets.embedded = true → (counterNames members).Pairwise Naming.Apart
  name_counter_apart : targets.embedded = true →
    ∀ m ∈ members, ∀ counter ∈ counterNames members, Naming.Apart m.2 counter
  not_owned : targets.embedded = true → ∀ m ∈ members, ∀ inner, m.1 ≠ pointerTo inner
  /-- What is read up to the end of the stream comes last. -/
  read_to_end_last : targets.host = true → ∀ m ∈ members.dropLast, ¬config.ReadToEnd m.1

/-- A declaration from which a message for the targets can be built. -/
structure Declaration.Admissible (config : Config) (targets : Targets) (declaration : Declaration) :
    Prop where
  name : Naming.IsIdentifier declaration.name
  field_name : ∀ m ∈ declaration.members, Naming.IsIdentifier m.2
  field_type : ∀ m ∈ declaration.members, config.KnownType m.1
  fits : targets.Fits config declaration.members

/-- Two texts with crossed counters: the room of the first is called like the length of the
second. -/
def Declaration.crossed : Declaration :=
  ⟨"M", [(textType, "a"), (textType, "aBuffer")], [], false⟩

/-! ## Fields -/

namespace Field

variable {config : Config} {location : Location} {members : List (String × String)}
  {f : Field} {fields : List Field}

def declared (f : Field) : String × String := (f.typeName, f.name)

/-- The field is what its type and name say. -/
def BuiltBy (config : Config) (f : Field) : Prop :=
  Naming.IsIdentifier f.name ∧ FieldKind.of? config f.typeName = some f.kind

theorem build_eq_ok {typeName name : String} :
    Field.build config typeName name = .ok f ↔
      (typeName, name) = f.declared ∧ f.BuiltBy config := by
  rw [Field.build, BuiltBy, ← Naming.isIdentifier_iff, declared]
  constructor
  · intro h
    split at h
    · cases h
    · rename_i hname
      split at h
      · cases h
        exact ⟨rfl, by simpa using hname, ‹_›⟩
      · cases h
  · rintro ⟨hdeclared, hname, hkind⟩
    cases hdeclared
    rw [hname, hkind]
    rfl

/-- Every member becomes a field. -/
theorem mapM_build_eq_ok : (members.mapM fun m =>
      (Field.build config m.1 m.2).mapError (SchemaError.malformed location ·)) = .ok fields ↔
    members = fields.map declared ∧ ∀ f ∈ fields, f.BuiltBy config := by
  induction members generalizing fields with
  | nil =>
    constructor
    · intro h
      cases h
      exact ⟨rfl, List.forall_mem_nil _⟩
    · rintro ⟨hmembers, -⟩
      rw [List.map_eq_nil_iff.1 hmembers.symm]
      rfl
  | cons m members ih =>
    rw [Outcome.mapM_cons_eq_ok]
    simp only [Outcome.mapError_eq_ok, build_eq_ok, ih]
    constructor
    · rintro ⟨f, rest, ⟨hm, hf⟩, ⟨hmembers, hrest⟩, rfl⟩
      exact ⟨by rw [List.map_cons, ← hm, ← hmembers], List.forall_mem_cons.2 ⟨hf, hrest⟩⟩
    · rintro ⟨hmembers, hbuilt⟩
      cases fields with
      | nil => cases hmembers
      | cons f rest =>
        rw [List.map_cons, List.cons.injEq] at hmembers
        rw [List.forall_mem_cons] at hbuilt
        exact ⟨f, rest, ⟨hmembers.1, hbuilt.1⟩, ⟨hmembers.2, hbuilt.2⟩, rfl⟩

theorem exists_builtBy (hname : ∀ m ∈ members, Naming.IsIdentifier m.2)
    (htype : ∀ m ∈ members, config.KnownType m.1) :
    ∃ fields : List Field, members = fields.map declared ∧ ∀ f ∈ fields, f.BuiltBy config := by
  induction members with
  | nil => exact ⟨[], rfl, List.forall_mem_nil _⟩
  | cons m members ih =>
    rw [List.forall_mem_cons] at hname htype
    obtain ⟨fields, hmembers, hbuilt⟩ := ih hname.2 htype.2
    obtain ⟨kind, hkind⟩ := FieldKind.of?_isSome_iff.2 htype.1
    refine ⟨⟨m.2, m.1, kind⟩ :: fields, ?_, List.forall_mem_cons.2 ⟨⟨hname.1, hkind⟩, hbuilt⟩⟩
    rw [List.map_cons, hmembers]
    rfl

/-- Only a text has counters. -/
theorem counters_slots (source : Nat) (f : Field) :
    ((f.slots source).filter Slot.isCounter).map Slot.member =
      if f.kind = .text then [Naming.memberName f.lengthName, Naming.memberName f.capacityName]
      else [] := by
  rw [slots]
  cases f.kind with
  | scalar type => rfl
  | text => rfl
  | owned core => rfl

/-- The counters of a record, by the plain names of the texts. -/
theorem map_member_counters (start : Nat) (h : ∀ f ∈ fields, f.BuiltBy config) :
    ((slotsFrom start fields).filter Slot.isCounter).map Slot.member =
      (counterNames (fields.map declared)).map Naming.memberName := by
  induction fields generalizing start with
  | nil => rfl
  | cons f fields ih =>
    obtain ⟨⟨hname, hkind⟩, hfields⟩ := List.forall_mem_cons.1 h
    have htext := FieldKind.eq_text_iff hkind
    have hcounter {ending : String} (hending : Naming.IsWord ending) :
        Naming.memberName (Naming.titleCase f.name ++ ending) =
          Naming.memberName (f.name ++ ending) :=
      Naming.memberName_titleCase_append hname.1 hending
    rw [slotsFrom, List.filter_append, List.map_append, counters_slots, ih _ hfields, List.map_cons]
    by_cases hf : f.kind = .text
    · rw [if_pos hf, counterNames_text (htext.1 hf), List.map_append, lengthName, capacityName,
        hcounter (Naming.isWord_ofList _ (by decide)),
        hcounter (Naming.isWord_ofList _ (by decide))]
      rfl
    · rw [if_neg hf, counterNames_other (mt htext.2 hf)]
      rfl

end Field

namespace Descriptor

variable {config : Config} {interface : Interface} {location : Location} {text : String}
  {declaration : Declaration} {d : Descriptor}

section Fields

variable (h : ∀ f ∈ d.fields, f.BuiltBy config)
include h

/-- The members that must differ are those of the plain names. -/
theorem members_eq : d.members = (d.fields.map Field.name ++
    if d.targets.embedded then counterNames (d.fields.map Field.declared) else []).map
      Naming.memberName := by
  rw [members, List.map_append, List.map_map]
  congr 1
  cases d.targets.embedded with
  | true => exact Field.map_member_counters 0 h
  | false => simp

theorem isWord_counterNames :
    ∀ name ∈ counterNames (d.fields.map Field.declared), Naming.IsWord name := by
  intro name hname
  obtain ⟨m, hm, hname⟩ := List.mem_flatMap.1 hname
  obtain ⟨f, hf, rfl⟩ := List.mem_map.1 (List.mem_of_mem_filter hm)
  have hword : Naming.IsWord f.name := (h f hf).1.1
  simp only [List.mem_cons, List.not_mem_nil, or_false] at hname
  rcases hname with rfl | rfl
  · exact hword.append (Naming.isWord_ofList _ (by decide))
  · exact hword.append (Naming.isWord_ofList _ (by decide))

/-- Comparing members is comparing plain names without regard to case. -/
theorem members_nodup_iff : d.members.Nodup ↔
    (d.fields.map Field.name).Pairwise Naming.Apart ∧
      (d.targets.embedded = true →
        (counterNames (d.fields.map Field.declared)).Pairwise Naming.Apart ∧
        ∀ name ∈ d.fields.map Field.name, ∀ counter ∈ counterNames (d.fields.map Field.declared),
          Naming.Apart name counter) := by
  have hnames : ∀ name ∈ d.fields.map Field.name, Naming.IsWord name := by
    rw [List.forall_mem_map]
    exact fun f hf => (h f hf).1.1
  rw [members_eq h]
  cases d.targets.embedded with
  | true =>
    rw [if_pos rfl, Naming.nodup_map_memberName
      (List.forall_mem_append.2 ⟨hnames, isWord_counterNames h⟩), List.pairwise_append]
    simp
  | false =>
    rw [if_neg Bool.false_ne_true, List.append_nil, Naming.nodup_map_memberName hnames]
    simp

theorem forall_isOwned_iff : (∀ f ∈ d.fields, f.kind.isOwned = false) ↔
    ∀ m ∈ d.fields.map Field.declared, ∀ inner, m.1 ≠ pointerTo inner := by
  rw [List.forall_mem_map]
  refine forall₂_congr fun f hf => ?_
  rw [Bool.eq_false_iff, ne_eq, FieldKind.isOwned_iff (h f hf).2, not_exists]
  rfl

theorem forall_streamDelimited_iff : (∀ f ∈ d.fields.dropLast, f.kind.streamDelimited = false) ↔
    ∀ m ∈ (d.fields.map Field.declared).dropLast, ¬config.ReadToEnd m.1 := by
  rw [← List.map_dropLast, List.forall_mem_map]
  refine forall₂_congr fun f hf => ?_
  rw [Bool.eq_false_iff, ne_eq,
    FieldKind.streamDelimited_iff (h f (List.dropLast_subset _ hf)).2]
  rfl

/-- A descriptor is consistent exactly if its declaration fits its targets. -/
theorem consistent_iff_fits :
    d.Consistent ↔ d.targets.Fits config (d.fields.map Field.declared) := by
  have hnodup := members_nodup_iff h
  have howned := forall_isOwned_iff h
  have hdelimited := forall_streamDelimited_iff h
  have hnames : (d.fields.map Field.declared).map Prod.snd = d.fields.map Field.name := by
    rw [List.map_map]
    rfl
  constructor
  · intro hc
    obtain ⟨hnames', hcounters⟩ := hnodup.1 hc.members_nodup
    refine ⟨by rwa [hnames], fun he => (hcounters he).1, fun he m hm => ?_,
      fun he => howned.1 (hc.embedded he), fun hh => hdelimited.1 (hc.host hh)⟩
    exact (hcounters he).2 m.2 (hnames ▸ List.mem_map_of_mem hm)
  · intro hf
    have hnames' := hf.names_apart
    rw [hnames] at hnames'
    refine ⟨hnodup.2 ⟨hnames', fun he => ⟨hf.counters_apart he, ?_⟩⟩,
      fun he => howned.2 (hf.not_owned he), fun hh => hdelimited.2 (hf.read_to_end_last hh)⟩
    rw [← hnames, List.forall_mem_map]
    exact hf.name_counter_apart he

end Fields

/-- The fields of a message are the members of its declaration. -/
theorem declared_of_build (h : build config interface location text = .ok d) :
    ∃ declaration, Declaration.parse location text = .ok declaration ∧ declaration.name = d.name ∧
      declaration.members = d.fields.map Field.declared ∧ ∀ f ∈ d.fields, f.BuiltBy config := by
  obtain ⟨declaration, hparse, h⟩ := Outcome.bind_eq_ok.1 h
  obtain ⟨fields, hfields, rfl, -⟩ := ofDeclaration_eq_ok h
  exact ⟨declaration, hparse, rfl, Field.mapM_build_eq_ok.1 hfields⟩

theorem ofDeclaration_of_consistent {fields : List Field}
    (hname : Naming.isIdentifier declaration.name = true)
    (hfields : (declaration.members.mapM fun m =>
      (Field.build config m.1 m.2).mapError (SchemaError.malformed location ·)) = .ok fields)
    (hd : d = ⟨declaration.name, interface.name, interface.targets, fields, declaration.includes,
        declaration.internal, location⟩) (hc : d.Consistent) :
    ofDeclaration config interface location declaration = .ok d := by
  subst hd
  unfold ofDeclaration
  refine Outcome.check_eq_ok.2 ⟨by simp [hname], Outcome.bind_eq_ok.2 ⟨fields, hfields, ?_⟩⟩
  dsimp only
  rw [error?_eq_none_iff.2 hc]
  rfl

/-- **Which declarations are accepted.** A message is built from a declaration exactly if its names
are identifiers, its types are known, no two members have one name, and its targets can carry it. -/
theorem build_iff_admissible (hparse : Declaration.parse location text = .ok declaration) :
    (∃ d, build config interface location text = .ok d) ↔
      declaration.Admissible config interface.targets := by
  constructor
  · rintro ⟨d, h⟩
    obtain ⟨declaration', hparse', hname, hmembers, hbuilt⟩ := declared_of_build h
    cases hparse.symm.trans hparse'
    obtain ⟨hc, htargets⟩ := consistent_of_build h
    refine ⟨?_, ?_, ?_, ?_⟩
    · rw [hname]
      exact Naming.isIdentifier_iff.1 (isIdentifier_of_build h)
    · rw [hmembers, List.forall_mem_map]
      exact fun f hf => (hbuilt f hf).1
    · rw [hmembers, List.forall_mem_map]
      exact fun f hf => FieldKind.of?_isSome_iff.1 ⟨f.kind, (hbuilt f hf).2⟩
    · rw [hmembers, ← htargets]
      exact (consistent_iff_fits hbuilt).1 hc
  · intro h
    obtain ⟨fields, hmembers, hbuilt⟩ := Field.exists_builtBy h.field_name h.field_type
    have hfits := h.fits
    rw [hmembers] at hfits
    rw [build, hparse, Outcome.ok_bind]
    exact ⟨_, ofDeclaration_of_consistent (Naming.isIdentifier_iff.2 h.name)
      (Field.mapM_build_eq_ok.2 ⟨hmembers, hbuilt⟩) rfl ((consistent_iff_fits hbuilt).2 hfits)⟩

/-- Texts with crossed counters are refused in a record. Without one, nothing is wrong with them. -/
theorem build_iff_admissible_crossed :
    Declaration.parse ⟨"m", 2⟩ "M --member std::string a --member std::string aBuffer" =
      .ok .crossed ∧
    (¬∃ d, build {} (.empty "F" ⟨false, true⟩ ⟨"m", 1⟩) ⟨"m", 2⟩
      "M --member std::string a --member std::string aBuffer" = .ok d) ∧
    ∃ d, build {} (.empty "F" ⟨false, false⟩ ⟨"m", 1⟩) ⟨"m", 2⟩
      "M --member std::string a --member std::string aBuffer" = .ok d := by
  have hparse : Declaration.parse ⟨"m", 2⟩
      "M --member std::string a --member std::string aBuffer" = .ok .crossed := by decide +kernel
  refine ⟨hparse, ?_, ?_⟩
  · rw [build_iff_admissible hparse]
    intro h
    have hapart := h.fits.counters_apart rfl
    exact absurd hapart (by decide +kernel)
  · rw [build_iff_admissible hparse]
    refine ⟨Naming.isIdentifier_iff.1 (by decide +kernel), ?_, ?_, ?_⟩
    · simp only [← Naming.isIdentifier_iff]
      decide +kernel
    · rintro m hm
      have htext : m.1 = textType := by
        revert m
        decide +kernel
      rw [htext]
      exact .text
    · have hno {p : Prop} (h : false = true) : p := absurd h Bool.false_ne_true
      exact ⟨by decide +kernel, hno, hno, hno, hno⟩

end Descriptor

end WireSchema
