import WireSchema.Emit.SharedHeaders
import WireSchema.Proofs.AddressAllocation
import WireSchema.Proofs.Schema.Compile

/-!
# Enumerators of the generated headers

All enumerators of a tree stand in one scope: those of the message types with the two reserved ones
around them, those of the domains and those of the addresses. Three checks keep them apart. The
registry refuses a message with a reserved name or with the name of another message
(`typeNames_nodup`), the allocation refuses a name that a domain or an address has
(`nodup_names_of_allocate`), and the compiler refuses an address map that shares a name with the
messages (`checkSharedScope_eq_ok`). Nothing compares an address with the reserved names.

**Theorem (`tags_nodup_iff`).** The enumerators of a compiled schema are pairwise different exactly
if no domain and no address has a reserved name.
-/

namespace WireSchema

/-! ## Message types -/

namespace Compilation

variable {config : Config} {c c' : Compilation} {line : Line}

theorem Step.typeNames_nodup (h : Step config c line c') (hc : c.registry.typeNames.Nodup) :
    c'.registry.typeNames.Nodup := by
  cases h with
  | opened _ hpush =>
    obtain ⟨-, rfl⟩ := Registry.pushInterface_eq_ok hpush
    exact hc
  | closed => exact hc
  | declared _ _ _ hpush =>
    exact Registry.typeNames_nodup_pushMessage hc hpush

/-- Messages leave the addresses alone. -/
theorem Step.addresses_eq (h : Step config c line c') :
    c'.registry.addresses = c.registry.addresses := by
  cases h with
  | opened _ hpush =>
    obtain ⟨-, rfl⟩ := Registry.pushInterface_eq_ok hpush
    rfl
  | closed => rfl
  | declared _ _ _ hpush =>
    obtain ⟨-, -, -, -, interfaces, -, rfl⟩ := Registry.pushMessage_eq_ok hpush
    rfl

end Compilation

/-- The enumeration of types lists no name twice. -/
theorem typeNames_nodup {config : Config} {source : Source} {r : Registry}
    (h : (compileMessages config source).outcome = .ok r) : r.typeNames.Nodup := by
  obtain ⟨c, hrun, rfl⟩ := compileMessages_eq_ok h
  have hempty : (Registry.typeNames {}).Nodup := by decide
  exact Compilation.run_induction (P := fun c => c.registry.typeNames.Nodup)
    Compilation.Step.typeNames_nodup hempty hrun

theorem addresses_of_compileMessages {config : Config} {source : Source} {r : Registry}
    (h : (compileMessages config source).outcome = .ok r) : r.addresses = {} := by
  obtain ⟨c, hrun, rfl⟩ := compileMessages_eq_ok h
  exact Compilation.run_induction (P := fun c => c.registry.addresses = {})
    (fun hstep hc => hstep.addresses_eq.trans hc) rfl hrun

/-! ## Domains and addresses -/

theorem AddressMap.map_fst_names (m : AddressMap) :
    m.names.map Prod.fst = m.domains.map Domain.name ++ m.entries.map AddressEntry.name := by
  simp only [names, List.map_append, List.map_map]
  rfl

namespace Allocation

variable {a a' : Allocation} {line : Line}

/-- A step adds at most one name, and only a new one. -/
theorem names_of_step (h : (a.step line).outcome = .ok a') :
    (a'.map.names.map Prod.fst).Perm (a.map.names.map Prod.fst) ∨
      ∃ name, name ∉ a.map.names.map Prod.fst ∧
        (a'.map.names.map Prod.fst).Perm (name :: a.map.names.map Prod.fst) := by
  simp only [AddressMap.map_fst_names]
  unfold step at h
  split at h
  · obtain ⟨region, -, hnew, rfl⟩ := openRegion_eq_ok.1 h
    refine .inr ⟨_, hnew, ?_⟩
    simp only [List.map_append, List.map_singleton, List.append_assoc, List.singleton_append]
    exact List.perm_middle
  · obtain ⟨-, rfl⟩ := closeRegion_eq_ok.1 h
    exact .inl (List.Perm.refl _)
  · obtain ⟨region, index, -, -, -, hnew, rfl⟩ := declare_eq_ok.1 h
    refine .inr ⟨_, hnew, ?_⟩
    rw [List.map_append, List.map_singleton, ← List.append_assoc]
    exact List.perm_append_singleton _ _

theorem names_nodup_of_run {items : List (Except SchemaError Line)}
    (ha : (a.map.names.map Prod.fst).Nodup) (h : (a.run items).outcome = .ok a') :
    (a'.map.names.map Prod.fst).Nodup := by
  induction items generalizing a with
  | nil =>
    cases h
    exact ha
  | cons item items ih =>
    obtain ⟨line, next, -, hstep, h⟩ := run_cons_eq_ok.1 h
    apply ih _ h
    rcases names_of_step hstep with hsame | ⟨name, hnew, hmore⟩
    · exact hsame.nodup_iff.2 ha
    · exact hmore.nodup_iff.2 (List.nodup_cons.2 ⟨hnew, ha⟩)

end Allocation

/-- Domains and addresses share one scope, in which no name is declared twice. -/
theorem nodup_names_of_allocate {markers : Markers} {file text : String} {m : AddressMap}
    (h : (AddressMap.allocate markers file text).outcome = .ok m) :
    (m.names.map Prod.fst).Nodup := by
  rw [outcome_allocate] at h
  obtain ⟨a, hrun, h⟩ := Outcome.bind_eq_ok.1 h
  cases h
  have hempty : ((Allocation.map {}).names.map Prod.fst).Nodup := List.nodup_nil
  exact Allocation.names_nodup_of_run hempty hrun

theorem checkSharedScope_eq_ok {r : Registry} {m : AddressMap} {u : Unit} :
    checkSharedScope r m = .ok u ↔
      ∀ name ∈ m.names.map Prod.fst, name ∉ r.messages.map Descriptor.name := by
  have hfind : (m.names.findSome? fun n => (r.message? n.1).map (n, ·)) = none ↔
      ∀ name ∈ m.names.map Prod.fst, name ∉ r.messages.map Descriptor.name := by
    simp only [List.findSome?_eq_none_iff, Option.map_eq_none_iff, Registry.message?_eq_none_iff,
      List.forall_mem_map]
  rw [← hfind]
  unfold checkSharedScope
  split
  · rename_i hsome
    simp [hsome]
  · rename_i hnone
    simp only [hnone]

/-! ## One scope -/

/-- What the checks leave: no two messages have one name, no two domains or addresses, and no
domain or address has the name of a message. -/
theorem scopes_of_compile {config : Config} {messages : Source} {addresses : Option Source}
    {r : Registry} (h : (compile config messages addresses).outcome = .ok r) :
    r.typeNames.Nodup ∧ (r.addresses.names.map Prod.fst).Nodup ∧
      ∀ name ∈ r.addresses.names.map Prod.fst, name ∉ r.messages.map Descriptor.name := by
  obtain ⟨⟨base, hbase, haddresses⟩, -⟩ := compile_eq_ok h
  have htypes := typeNames_nodup hbase
  rcases haddresses with ⟨-, rfl⟩ | ⟨source, -, haddresses⟩
  · rw [addresses_of_compileMessages hbase]
    exact ⟨htypes, List.nodup_nil, by simp [AddressMap.names]⟩
  · obtain ⟨m, hm, hscope, rfl⟩ := compileAddresses_eq_ok haddresses
    exact ⟨htypes, nodup_names_of_allocate hm, checkSharedScope_eq_ok.1 hscope⟩

namespace Emit

/-- The enumerators of the two headers of a tree. -/
def tags (r : Registry) : List String :=
  typeTags r ++ (domainTags r.addresses ++ addressTags r.addresses).map Prod.fst

theorem enumTag_injective : Function.Injective Naming.enumTag := by
  intro name other h
  apply String.toList_inj.1
  have hlist := congrArg String.toList h
  simpa [Naming.enumTag] using hlist

theorem tags_eq (r : Registry) :
    tags r = (r.typeNames ++ r.addresses.names.map Prod.fst).map Naming.enumTag := by
  simp only [tags, typeTags, domainTags, addressTags, AddressMap.map_fst_names, List.map_append,
    List.map_map]
  rfl

/-- The enumerators of a compiled schema are pairwise different exactly if no domain and no address
has a reserved name. -/
theorem tags_nodup_iff {config : Config} {messages : Source} {addresses : Option Source}
    {r : Registry} (h : (compile config messages addresses).outcome = .ok r) :
    (tags r).Nodup ↔ ∀ name ∈ r.addresses.names.map Prod.fst, name ≠ noType ∧ name ≠ lastType := by
  obtain ⟨htypes, haddresses, hshared⟩ := scopes_of_compile h
  rw [tags_eq, List.nodup_map_iff enumTag_injective, List.nodup_append']
  constructor
  · intro hnodup name hname
    have hfree : name ∉ r.typeNames := fun hmem => hnodup.2.2 hmem hname
    rw [Registry.mem_typeNames] at hfree
    tauto
  · intro hunreserved
    refine ⟨htypes, haddresses, fun name htype hname => ?_⟩
    obtain ⟨hfirst, hlast⟩ := hunreserved name hname
    have hmessage := hshared name hname
    rw [Registry.mem_typeNames] at htype
    tauto

/-- Three messages, and two domains with an address in each. -/
theorem tags_nodup_twoDomains :
    ∃ r, (compile {} .paired (some ⟨"a", "*Air\nPilot\n*Ground\nTower\n*\n"⟩)).outcome = .ok r ∧
      (tags r).Nodup ∧ tags r = ["Msg_NoType_e", "M_e", "N_e", "H_e", "Msg_LastType_e",
        "Air_e", "Ground_e", "Pilot_e", "Tower_e"] := by
  have hcompile : (compile {} .paired
      (some ⟨"a", "*Air\nPilot\n*Ground\nTower\n*\n"⟩)).outcome =
        .ok (Registry.paired.setAddresses
          { domains := [⟨"Air", 0, ⟨"a", 1⟩⟩, ⟨"Ground", 1, ⟨"a", 3⟩⟩]
            entries := [⟨"Pilot", 0, 0, ⟨"a", 2⟩⟩, ⟨"Tower", 1, 0, ⟨"a", 4⟩⟩] }) :=
    Outcome.of_toOption (by decide +kernel)
  exact ⟨_, hcompile, (tags_nodup_iff hcompile).2 (by decide), by decide +kernel⟩

/-- An address with a reserved name has the enumerator of that name, and compiles. -/
theorem tags_of_reserved_address :
    ∃ r, (compile {} ⟨"messages.txt", "*GS_FC_A\nMsg_P --member uint8_t x\n*\n"⟩
        (some ⟨"addresses.txt", "*G\nMsg_NoType\n*\n"⟩)).outcome = .ok r ∧
      tags r = ["Msg_NoType_e", "Msg_P_e", "Msg_LastType_e", "G_e", "Msg_NoType_e"] ∧
      ¬(tags r).Nodup := by
  refine ⟨
    { interfaces := [⟨"GS_FC_A", ⟨true, true⟩, ⟨"messages.txt", 1⟩, ["Msg_P"]⟩]
      messages := [⟨"Msg_P", "GS_FC_A", ⟨true, true⟩, [⟨"x", "uint8_t", .scalar .u8⟩], [], false,
        ⟨"messages.txt", 2⟩⟩]
      addresses := ⟨[⟨"G", 0, ⟨"addresses.txt", 1⟩⟩],
        [⟨"Msg_NoType", 0, 0, ⟨"addresses.txt", 2⟩⟩]⟩ }, ?_, ?_, ?_⟩
  · exact Outcome.of_toOption (by decide +kernel)
  · decide +kernel
  · decide +kernel

end Emit

end WireSchema
