import WireSchema.Proofs.Schema.Lines
import WireSchema.Proofs.Schema.Shape

/-!
# Schemas that grow

Type ids go over the wire, so two builds from two states of a schema must agree on them. They do if
lines are only added at the end of the schema.

**Theorem (`compile_continued`).** A schema that does not compile fails with the same error when it
is continued on a new line. If the continued schema compiles, so does the schema itself, its
messages come first with the same ids, and of its interfaces only the last one may get further
members.

Lines are read and taken one after the other, so the run over the continued text starts with the run
over the text (`readAll_append_newline`, `outcome_run_append`). What a step does to the registry is
to extend it (`Step.extends`), and extensions compose.
-/

namespace WireSchema

namespace Registry

/-- `r'` has all of `r` at the same places. It may have more messages and interfaces behind those of
`r`, and more members in the last interface of `r`. -/
structure Extends (r' r : Registry) : Prop where
  messages : r.messages <+: r'.messages
  interfaces : ∀ k i, r.interfaces[k]? = some i → ∃ more,
    r'.interfaces[k]? = some { i with messages := i.messages ++ more } ∧
      (k + 1 < r.interfaces.length → more = [])

variable {r r' r'' : Registry}

theorem Extends.of_append (hmessages : r.messages <+: r'.messages)
    (hinterfaces : r.interfaces <+: r'.interfaces) : r'.Extends r := by
  refine ⟨hmessages, fun k i hi => ⟨[], ?_, fun _ => rfl⟩⟩
  obtain ⟨behind, hbehind⟩ := hinterfaces
  have hk : k < r.interfaces.length := (List.getElem?_eq_some_iff.1 hi).1
  rw [← hbehind, List.getElem?_append_left hk, hi, List.append_nil]

theorem Extends.refl (r : Registry) : r.Extends r :=
  .of_append (List.prefix_refl _) (List.prefix_refl _)

theorem Extends.length_le (h : r'.Extends r) : r.interfaces.length ≤ r'.interfaces.length := by
  by_contra hlt
  obtain ⟨more, hget, -⟩ :=
    h.interfaces r'.interfaces.length _ (List.getElem?_eq_getElem (by omega))
  simp at hget

theorem Extends.trans (h : r''.Extends r') (h' : r'.Extends r) : r''.Extends r := by
  refine ⟨h'.messages.trans h.messages, fun k i hi => ?_⟩
  obtain ⟨more, hget, hmore⟩ := h'.interfaces k i hi
  obtain ⟨more', hget', hmore'⟩ := h.interfaces k _ hget
  refine ⟨more ++ more', by rw [hget', List.append_assoc], fun hlt => ?_⟩
  rw [hmore hlt, hmore' (Nat.lt_of_lt_of_le hlt h'.length_le)]
  rfl

theorem Extends.setAddresses (h : r'.Extends r) (m : AddressMap) :
    (r'.setAddresses m).Extends r :=
  ⟨h.messages, h.interfaces⟩

/-- The type ids of `r` stay. -/
theorem Extends.typeId? (h : r'.Extends r) {name : String} {id : Nat}
    (hid : r.typeId? name = some id) : r'.typeId? name = some id :=
  typeId?_of_prefix h.messages hid

/-! ## Steps -/

theorem extends_pushInterface {i : Interface} (h : r.pushInterface i = .ok r') : r'.Extends r := by
  obtain ⟨-, rfl⟩ := pushInterface_eq_ok h
  exact .of_append (List.prefix_refl _) (List.prefix_append _ _)

theorem Shaped.extends_pushMessage (hr : r.Shaped) {i : Interface} (hlast : r.Ends i)
    {d : Descriptor} {id : Nat} (hname : d.interface = i.name)
    (h : r.pushMessage d = .ok (r', id)) : r'.Extends r := by
  obtain ⟨front, members, hfront, rfl⟩ := hr.pushMessage_eq hlast hname h
  refine ⟨List.prefix_append _ _, fun k j hj => ?_⟩
  rw [hfront] at hj ⊢
  by_cases hk : k < front.length
  · rw [List.getElem?_append_left hk] at hj ⊢
    exact ⟨[], by rw [List.append_nil, hj], fun _ => rfl⟩
  · -- The last interface gets the name of the message.
    have hlt : k < front.length + 1 := by simpa using (List.getElem?_eq_some_iff.1 hj).1
    obtain rfl : k = front.length := by omega
    rw [List.getElem?_concat_length] at hj ⊢
    cases hj
    refine ⟨[d.name], rfl, fun hmore => ?_⟩
    simp at hmore

end Registry

/-! ## Runs -/

namespace Compilation

variable {config : Config} {c c' : Compilation}

theorem Step.extends {line : Line} (h : Step config c line c') (hc : c.Shaped) :
    c'.registry.Extends c.registry := by
  cases h with
  | opened _ hpush => exact Registry.extends_pushInterface hpush
  | closed => exact .refl _
  | declared _ hcurrent hbuild hpush =>
    exact hc.1.extends_pushMessage (hc.2 _ hcurrent) (Descriptor.interface_of_build hbuild) hpush

theorem extends_of_run {lines : List (Except SchemaError Line)} (hc : c.Shaped)
    (h : (c.run config lines).outcome = .ok c') : c'.registry.Extends c.registry := by
  have hrun : c'.Shaped ∧ c'.registry.Extends c.registry :=
    run_induction (P := fun c' => c'.Shaped ∧ c'.registry.Extends c.registry)
      (fun hstep hprev => ⟨hstep.shaped hprev.1, (hstep.extends hprev.1).trans hprev.2⟩)
      ⟨hc, .refl _⟩ h
  exact hrun.2

theorem outcome_run_append (c : Compilation) (lines more : List (Except SchemaError Line)) :
    (c.run config (lines ++ more)).outcome =
      (c.run config lines).outcome >>= fun c => (c.run config more).outcome := by
  unfold run
  simp only [Traced.outcome_foldlM, List.foldlM_append]

end Compilation

/-- Reading a continued schema goes on where reading the schema ended. -/
theorem outcome_compileMessages_continued (config : Config) (file text more : String) :
    ∃ lines, (compileMessages config ⟨file, text ++ "\n" ++ more⟩).outcome =
      (Compilation.run config {} (Line.readAll config.markers file text)).outcome >>= fun c =>
        (c.run config lines).outcome >>= fun c => .ok c.registry := by
  obtain ⟨lines, hlines⟩ := Line.readAll_append_newline config.markers file text more
  refine ⟨lines, ?_⟩
  rw [outcome_compileMessages, ← hlines, Compilation.outcome_run_append, bind_assoc]

/-- **Schemas grow at the end.** An error of a schema stays when the schema is continued on a new
line. If the continued schema compiles, the schema does, and all that it declares stays at its place
with its type id. -/
theorem compile_continued (config : Config) (file text more : String)
    (addresses : Option Source) :
    (∀ e, (compile config ⟨file, text⟩ none).outcome = .error e →
      (compile config ⟨file, text ++ "\n" ++ more⟩ addresses).outcome = .error e) ∧
    ∀ r', (compile config ⟨file, text ++ "\n" ++ more⟩ addresses).outcome = .ok r' →
      ∃ r, (compile config ⟨file, text⟩ none).outcome = .ok r ∧ r'.Extends r ∧
        ∀ name id, r.typeId? name = some id → r'.typeId? name = some id := by
  -- The continued schema is read as the lines of the first one and then more lines.
  obtain ⟨lines, hlines⟩ := outcome_compileMessages_continued config file text more
  rw [outcome_compile, outcome_compile, hlines, outcome_compileMessages]
  cases hrun : (Compilation.run config {} (Line.readAll config.markers file text)).outcome with
  | error e =>
    refine ⟨fun e' h => ?_, nofun⟩
    cases h
    rfl
  | ok c =>
    refine ⟨nofun, fun r' h => ⟨c.registry, rfl, ?_⟩⟩
    obtain ⟨base, hbase, h⟩ := Outcome.bind_eq_ok.1 h
    rw [Outcome.ok_bind] at hbase
    obtain ⟨c', hmore, hbase⟩ := Outcome.bind_eq_ok.1 hbase
    cases hbase
    have hextends := Compilation.extends_of_run (Compilation.shaped_of_run hrun) hmore
    have hextends' : r'.Extends c.registry := by
      cases addresses with
      | none =>
        cases h
        exact hextends
      | some source =>
        obtain ⟨m, -, -, rfl⟩ := compileAddresses_eq_ok h
        exact hextends.setAddresses m
    exact ⟨hextends', fun _ _ => hextends'.typeId?⟩

/-- The schema goes on inside its first interface, and an interface that closes too early stays an
error. -/
theorem compile_continued_paired :
    (∃ r, (compile {} ⟨"m", "*XFC_A\nM --member int16_t b"⟩ none).outcome = .ok r ∧
      Registry.paired.Extends r ∧
        ∀ name id, r.typeId? name = some id → Registry.paired.typeId? name = some id) ∧
    (compile {} ⟨"m", "*\n*XFC_A"⟩ none).outcome =
      .error (.malformed ⟨"m", 1⟩ .closeWithoutInterface) := by
  constructor
  · have hjoined : Source.paired = ⟨"m", "*XFC_A\nM --member int16_t b" ++ "\n" ++
        "N --internal\n*\n*XGS_B\nH --member std::string t\n*\n"⟩ := rfl
    have hpaired := compile_paired
    rw [hjoined] at hpaired
    exact (compile_continued {} "m" _ _ none).2 _ hpaired
  · exact (compile_continued {} "m" "*" "*XFC_A" none).1 _ rfl

end WireSchema
