import WireSchema.Proofs.Outcome
import WireSchema.Schema.Compile

/-!
# Errors point at lines

Reading a schema fails at a line, and the error says at which. Of all the errors that there are,
those about dispatch tables, files and configurations have no location; so none of them can come out
of reading messages (`failsOnly_compileMessages`) or addresses (`failsOnly_compileAddresses`).
-/

namespace WireSchema

open Outcome

/-- The error points at a line of a schema. -/
def SchemaError.Located (e : SchemaError) : Prop := ∃ location, e.location? = some location

open SchemaError (Located)

theorem SchemaError.Located.ne_dispatch {e : SchemaError} (h : e.Located) (rep : Representation)
    (name : String) (typeId entries : Nat) : e ≠ .dispatch rep name typeId entries := by
  obtain ⟨location, h⟩ := h
  rintro rfl
  cases h

theorem located_malformed (location : Location) (fault : LineFault) :
    Located (.malformed location fault) := ⟨location, rfl⟩

theorem located_duplicateName (location : Location) (kind : NameKind) (name : String)
    (first : Location) : Located (.duplicateName location kind name first) := ⟨location, rfl⟩

/-! ## Lines and declarations -/

theorem Line.located_of_mem_readAll {markers : Markers} {file text : String} {e : SchemaError}
    (h : .error e ∈ readAll markers file text) : e.Located := by
  obtain ⟨p, -, h⟩ := List.mem_filterMap.1 h
  obtain ⟨outcome, -, h⟩ := Option.map_eq_some_iff.1 h
  cases outcome with
  | ok directive => cases h
  | error fault =>
    cases h
    exact located_malformed _ _

theorem Declaration.failsOnly_parse (location : Location) (text : String) :
    FailsOnly Located (parse location text) := by
  unfold parse
  split
  · exact failsOnly_ok _
  · exact failsOnly_error (located_malformed _ _)

theorem Descriptor.located_of_error? {d : Descriptor} {e : SchemaError} (h : d.error? = some e) :
    e.Located := by
  unfold error? at h
  split at h
  · cases h
    exact located_duplicateName _ _ _ _
  · split at h
    · cases h
      exact located_malformed _ _
    · split at h
      · cases h
        exact located_malformed _ _
      · cases h

theorem Descriptor.failsOnly_ofDeclaration (config : Config) (interface : Interface)
    (location : Location) (declaration : Declaration) :
    FailsOnly Located (ofDeclaration config interface location declaration) := by
  unfold ofDeclaration
  apply FailsOnly.check (located_malformed _ _)
  refine (FailsOnly.mapM (fun m => failsOnly_mapError (located_malformed location) _) _).bind
    fun fields => ?_
  dsimp only
  split
  · exact failsOnly_error (located_of_error? ‹_›)
  · exact failsOnly_ok _

theorem Descriptor.failsOnly_build (config : Config) (interface : Interface) (location : Location)
    (text : String) : FailsOnly Located (build config interface location text) :=
  (Declaration.failsOnly_parse location text).bind fun declaration =>
    failsOnly_ofDeclaration config interface location declaration

/-! ## Messages -/

theorem Registry.failsOnly_pushInterface (r : Registry) (i : Interface) :
    FailsOnly Located (r.pushInterface i) := by
  unfold pushInterface
  split
  · exact failsOnly_error (located_duplicateName _ _ _ _)
  · exact failsOnly_ok _

theorem Registry.failsOnly_pushMessage (r : Registry) (d : Descriptor) :
    FailsOnly Located (r.pushMessage d) := by
  unfold pushMessage
  split
  · exact failsOnly_error (located_malformed _ _)
  · split
    · exact failsOnly_error (located_duplicateName _ _ _ _)
    · split
      · exact failsOnly_error (located_malformed _ _)
      · exact failsOnly_ok _

namespace Compilation

variable (config : Config) (c : Compilation)

theorem failsOnly_openInterface (location : Location) (name : String) :
    FailsOnly Located (c.openInterface config location name).outcome := by
  have hpush (i : Interface) : FailsOnly Located (do
      let registry ← c.registry.pushInterface i
      pure ⟨registry, some i⟩ : Traced SchemaError Compilation).outcome :=
    Traced.failsOnly_bind (c.registry.failsOnly_pushInterface i) fun _ => failsOnly_ok _
  unfold openInterface
  split
  · exact Traced.failsOnly_bind (failsOnly_ok _) fun _ =>
      Traced.failsOnly_bind (failsOnly_ok _) fun _ => hpush _
  · exact Traced.failsOnly_bind (failsOnly_ok _) fun _ => hpush _

theorem failsOnly_closeInterface (location : Location) :
    FailsOnly Located (c.closeInterface location).outcome := by
  unfold closeInterface
  split
  · exact failsOnly_error (located_malformed _ _)
  · exact failsOnly_ok _

theorem failsOnly_declare (location : Location) (text : String) :
    FailsOnly Located (c.declare config location text).outcome := by
  unfold declare
  split
  · exact failsOnly_error (located_malformed _ _)
  · refine Traced.failsOnly_bind (Descriptor.failsOnly_build config _ location text) fun d => ?_
    refine Traced.failsOnly_bind (failsOnly_ok _) fun _ => ?_
    exact Traced.failsOnly_bind (c.registry.failsOnly_pushMessage d) fun _ => failsOnly_ok _

theorem failsOnly_step (line : Line) : FailsOnly Located (c.step config line).outcome := by
  unfold step
  split
  · exact c.failsOnly_openInterface config _ _
  · exact c.failsOnly_closeInterface _
  · exact c.failsOnly_declare config _ _

end Compilation

/-- Taking lines one by one fails at a line if every single step does. -/
theorem failsOnly_lines {σ : Type} {step : σ → Line → Traced SchemaError σ}
    (hstep : ∀ s line, FailsOnly Located (step s line).outcome) (markers : Markers)
    (file text : String) (s : σ) :
    FailsOnly Located ((Line.readAll markers file text).foldlM
      (fun s (line : Except SchemaError Line) =>
        (do step s (← line) : Traced SchemaError σ)) s).outcome := by
  rw [Traced.outcome_foldlM]
  refine FailsOnly.foldlM (fun s line hline => Traced.failsOnly_bind ?_ (hstep s)) s
  rintro e rfl
  exact Line.located_of_mem_readAll hline

theorem failsOnly_compileMessages (config : Config) (source : Source) :
    FailsOnly Located (compileMessages config source).outcome := by
  refine Traced.failsOnly_bind (failsOnly_lines (fun c => c.failsOnly_step config) _ _ _ _)
    fun c => ?_
  split
  · exact failsOnly_ok _
  · exact failsOnly_ok _

/-! ## Addresses -/

namespace Allocation

variable (a : Allocation) (location : Location)

theorem failsOnly_fit (part : AddressPart) (value : Nat) :
    FailsOnly Located (fit location part value) := by
  unfold fit
  split
  · exact failsOnly_ok _
  · exact failsOnly_error ⟨location, rfl⟩

theorem failsOnly_claim (kind : NameKind) (name : String) :
    FailsOnly Located (a.claim location kind name) := by
  unfold claim
  split
  · exact failsOnly_error (located_duplicateName _ _ _ _)
  · exact failsOnly_ok _

theorem failsOnly_openRegion (name : String) :
    FailsOnly Located (a.openRegion location name).outcome := by
  have hopen (region : Fin 256) : FailsOnly Located (do
      a.claim location .domain name
      Traced.log (.regionOpened name region)
      pure ⟨{ a.map with domains := a.map.domains ++ [⟨name, region, location⟩] }, some region, 0⟩
      : Traced SchemaError Allocation).outcome :=
    Traced.failsOnly_bind (a.failsOnly_claim location _ _) fun _ => failsOnly_ok _
  unfold openRegion
  split
  · refine Traced.failsOnly_bind (failsOnly_ok _) fun _ => ?_
    exact Traced.failsOnly_bind (failsOnly_fit location _ _) hopen
  · exact Traced.failsOnly_bind (failsOnly_fit location _ _) hopen

theorem failsOnly_declare (name : String) : FailsOnly Located (a.declare location name) := by
  unfold declare
  split
  · exact failsOnly_error (located_malformed _ _)
  · apply FailsOnly.check (located_malformed _ _)
    refine (failsOnly_fit location _ _).bind fun index => ?_
    exact (a.failsOnly_claim location _ _).bind fun _ => failsOnly_ok _

theorem failsOnly_step (line : Line) : FailsOnly Located (a.step line).outcome := by
  unfold step
  split
  · exact a.failsOnly_openRegion _ _
  · unfold closeRegion
    split
    · exact failsOnly_ok _
    · exact failsOnly_error (located_malformed _ _)
  · exact a.failsOnly_declare _ _

end Allocation

theorem AddressMap.failsOnly_allocate (markers : Markers) (file text : String) :
    FailsOnly Located (allocate markers file text).outcome := by
  refine Traced.failsOnly_bind (failsOnly_lines Allocation.failsOnly_step _ _ _ _) fun a => ?_
  split
  · exact failsOnly_ok _
  · exact failsOnly_ok _

theorem failsOnly_compileAddresses (config : Config) (r : Registry) (source : Source) :
    FailsOnly Located (compileAddresses config r source).outcome := by
  refine Traced.failsOnly_bind (AddressMap.failsOnly_allocate _ _ _) fun m => ?_
  refine Traced.failsOnly_bind (failsOnly_ok _) fun _ => ?_
  refine Traced.failsOnly_bind ?_ fun _ => failsOnly_ok _
  show FailsOnly Located (checkSharedScope r m)
  unfold checkSharedScope
  split
  · exact failsOnly_error (located_duplicateName _ _ _ _)
  · exact failsOnly_ok _

end WireSchema
