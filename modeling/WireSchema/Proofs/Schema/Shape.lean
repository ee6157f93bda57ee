import Mathlib.Data.List.Flatten
import Mathlib.Data.List.Pairwise
import WireSchema.Proofs.DispatchTable
import WireSchema.Proofs.Schema.Build
import WireSchema.Proofs.Schema.Compile
import WireSchema.Proofs.Schema.ErrorLocation

/-!
# The shape of a compiled registry

The compiler keeps two views of the interface that is open: its own copy, from which messages take
their interface and their targets, and the one in the registry, which gets the names of the
messages.

**Theorem (`shape_of_compile`).** In a compiled registry no two interfaces have one name, the
member lists one after the other are the names of all messages in the order of declaration, without
repetition, and every message belongs to the interface that lists it and has the same targets.
Compilation never fails for want of a dispatch table.

The invariant is `Registry.Shaped`, and that the open interface is the last one of the registry but
for its members (`Registry.Ends`). Names are only added to the last interface, so the member lists
grow exactly as the list of messages does. In a shaped registry every message is listed exactly once
by an interface with its own targets, which is what a dispatch table asks for (`Shaped.covered`); so
the check that ends compilation never fails (`outcome_compile`).
-/

namespace WireSchema

namespace Registry

/-- Interfaces and messages agree with each other. -/
structure Shaped (r : Registry) : Prop where
  interfaces_nodup : (r.interfaces.map Interface.name).Nodup
  /-- The member lists in order are the messages in the order of declaration. -/
  members_eq : r.interfaces.flatMap Interface.messages = r.messages.map Descriptor.name
  names_nodup : (r.messages.map Descriptor.name).Nodup
  /-- A message has the name and the targets of the interface that lists it. -/
  owner : ∀ d ∈ r.messages, ∃ i ∈ r.interfaces,
    d.name ∈ i.messages ∧ d.interface = i.name ∧ d.targets = i.targets

/-- The last interface is `i`, whatever its members are. -/
def Ends (r : Registry) (i : Interface) : Prop :=
  ∃ front members, r.interfaces = front ++ [{ i with messages := members }]

variable {r r' : Registry} {i : Interface} {d : Descriptor} {id : Nat}

theorem shaped_empty : Shaped {} where
  interfaces_nodup := List.nodup_nil
  members_eq := rfl
  names_nodup := List.nodup_nil
  owner := nofun

/-! ## Steps -/

theorem Shaped.pushInterface (hr : r.Shaped) (hi : i.messages = [])
    (h : r.pushInterface i = .ok r') : r'.Shaped ∧ r'.Ends i := by
  obtain ⟨hnew, rfl⟩ := pushInterface_eq_ok h
  refine ⟨⟨?_, ?_, hr.names_nodup, fun d hd => ?_⟩, r.interfaces, i.messages, rfl⟩
  · rw [List.map_append, List.map_singleton, ← List.concat_eq_append]
    exact List.Nodup.concat hnew hr.interfaces_nodup
  · rw [List.flatMap_append, List.flatMap_singleton, hi, List.append_nil]
    exact hr.members_eq
  · obtain ⟨j, hj, hlisted⟩ := hr.owner d hd
    exact ⟨j, List.mem_append_left _ hj, hlisted⟩

/-- A name is added to the last interface when that is the one asked for. -/
theorem addMember_last {front : List Interface} (hnew : i.name ∉ front.map Interface.name)
    (name : String) : addMember i.name name (front ++ [i]) =
      some (front ++ [{ i with messages := i.messages ++ [name] }]) := by
  induction front with
  | nil => simp [addMember]
  | cons j front ih =>
    rw [List.map_cons, List.mem_cons, not_or] at hnew
    have hne : (j.name == i.name) = false := beq_false_of_ne (Ne.symm hnew.1)
    rw [List.cons_append, addMember, hne, ih hnew.2]
    rfl

/-- A message of the last interface is added behind all messages and behind all members. -/
theorem Shaped.pushMessage_eq (hr : r.Shaped) (hlast : r.Ends i) (hname : d.interface = i.name)
    (h : r.pushMessage d = .ok (r', id)) :
    ∃ front members, r.interfaces = front ++ [{ i with messages := members }] ∧
      r' = { r with
        interfaces := front ++ [{ i with messages := members ++ [d.name] }]
        messages := r.messages ++ [d] } := by
  obtain ⟨front, members, hfront⟩ := hlast
  obtain ⟨-, -, -, -, interfaces, hadd, rfl⟩ := pushMessage_eq_ok h
  have hnew : i.name ∉ front.map Interface.name := by
    have hnodup := hr.interfaces_nodup
    rw [hfront, List.map_append, List.map_singleton, ← List.concat_eq_append,
      List.nodup_concat] at hnodup
    exact hnodup.1
  rw [hfront, hname, addMember_last (i := { i with messages := members }) hnew] at hadd
  cases hadd
  exact ⟨front, members, hfront, rfl⟩

theorem Shaped.pushMessage (hr : r.Shaped) (hlast : r.Ends i) (hname : d.interface = i.name)
    (htargets : d.targets = i.targets) (h : r.pushMessage d = .ok (r', id)) :
    r'.Shaped ∧ r'.Ends i := by
  have hnames : r'.Distinct := Distinct.pushMessage hr.names_nodup h
  obtain ⟨front, members, hfront, rfl⟩ := hr.pushMessage_eq hlast hname h
  refine ⟨⟨?_, ?_, hnames, fun e he => ?_⟩, front, members ++ [d.name], rfl⟩
  · have hnodup := hr.interfaces_nodup
    rw [hfront] at hnodup
    simpa using hnodup
  · have hmembers := hr.members_eq
    rw [hfront, List.flatMap_append, List.flatMap_singleton] at hmembers
    rw [List.flatMap_append, List.flatMap_singleton, ← List.append_assoc, hmembers, List.map_append,
      List.map_singleton]
  · rcases List.mem_append.1 he with he | he
    · obtain ⟨j, hj, hlisted, hj'⟩ := hr.owner e he
      rw [hfront] at hj
      rcases List.mem_append.1 hj with hj | hj
      · exact ⟨j, List.mem_append_left _ hj, hlisted, hj'⟩
      · rw [List.mem_singleton.1 hj] at hlisted hj'
        exact ⟨_, List.mem_append_right _ List.mem_cons_self,
          List.mem_append_left _ hlisted, hj'⟩
    · rw [List.mem_singleton.1 he]
      exact ⟨_, List.mem_append_right _ List.mem_cons_self,
        List.mem_append_right _ List.mem_cons_self, hname, htargets⟩

theorem Shaped.setAddresses (hr : r.Shaped) (m : AddressMap) : (r.setAddresses m).Shaped :=
  ⟨hr.interfaces_nodup, hr.members_eq, hr.names_nodup, hr.owner⟩

/-! ## What follows -/

theorem Shaped.members_nodup (hr : r.Shaped) :
    (r.interfaces.flatMap Interface.messages).Nodup := by
  rw [hr.members_eq]
  exact hr.names_nodup

/-- Only one interface lists a name. -/
theorem Shaped.eq_of_listed (hr : r.Shaped) {j : Interface} {name : String}
    (hi : i ∈ r.interfaces) (hj : j ∈ r.interfaces) (hni : name ∈ i.messages)
    (hnj : name ∈ j.messages) : i = j := by
  by_contra hne
  have hpair := (List.nodup_flatMap.1 hr.members_nodup).2
  have hsymm : Std.Symm (Function.onFun List.Disjoint Interface.messages) :=
    ⟨fun _ _ h _ ha hb => h hb ha⟩
  exact hpair.forall hi hj hne hni hnj

/-- Every message on the wire is listed once by the interfaces of its representation. -/
theorem Shaped.covered (hr : r.Shaped) (rep : Representation) : r.Covered rep := by
  intro d hd hwire
  obtain ⟨i, hi, hlisted, -, htargets⟩ := hr.owner d hd
  have hsub : (r.listed rep).Sublist (r.interfaces.flatMap Interface.messages) :=
    List.Sublist.flatMap List.filter_sublist _
  refine List.count_eq_one_of_mem (hr.members_nodup.sublist hsub) ?_
  have hincludes : i.targets.includes rep = true := by
    rw [← htargets]
    exact (Bool.and_eq_true_iff.1 hwire).1
  exact List.mem_flatMap.2 ⟨i, List.mem_filter.2 ⟨hi, hincludes⟩, hlisted⟩

theorem Shaped.dispatchTable (hr : r.Shaped) (rep : Representation) :
    r.dispatchTable rep = .ok (r.wireEntries rep) :=
  dispatchTable_of_covered hr.names_nodup (hr.covered rep)

end Registry

/-! ## Compilation -/

namespace Compilation

/-- The registry is shaped, and the open interface is its last one. -/
def Shaped (c : Compilation) : Prop :=
  c.registry.Shaped ∧ ∀ i, c.current = some i → c.registry.Ends i

theorem shaped_initial : Shaped {} := by
  refine ⟨Registry.shaped_empty, fun i h => ?_⟩
  cases h

theorem Step.shaped {config : Config} {c c' : Compilation} {line : Line}
    (h : Step config c line c') (hc : c.Shaped) : c'.Shaped := by
  cases h with
  | opened _ hpush =>
    obtain ⟨hshaped, hends⟩ := hc.1.pushInterface rfl hpush
    refine ⟨hshaped, ?_⟩
    rintro i ⟨⟩
    exact hends
  | closed => exact ⟨hc.1, nofun⟩
  | declared _ hcurrent hbuild hpush =>
    obtain ⟨-, htargets⟩ := Descriptor.consistent_of_build hbuild
    have hname := Descriptor.interface_of_build hbuild
    obtain ⟨hshaped, hends⟩ := hc.1.pushMessage (hc.2 _ hcurrent) hname htargets hpush
    refine ⟨hshaped, fun i hi => ?_⟩
    cases hcurrent.symm.trans hi
    exact hends

theorem shaped_of_run {config : Config} {c : Compilation}
    {lines : List (Except SchemaError Line)} (h : (run config {} lines).outcome = .ok c) :
    c.Shaped :=
  run_induction Step.shaped shaped_initial h

end Compilation

section Compile

variable {config : Config} {messages : Source} {addresses : Option Source} {r : Registry}

theorem shaped_of_compileMessages (h : (compileMessages config messages).outcome = .ok r) :
    r.Shaped := by
  obtain ⟨c, hrun, rfl⟩ := compileMessages_eq_ok h
  exact (Compilation.shaped_of_run hrun).1

theorem shaped_of_compileAddresses {r' : Registry} {source : Source} (hr : r.Shaped)
    (h : (compileAddresses config r source).outcome = .ok r') : r'.Shaped := by
  obtain ⟨m, -, -, rfl⟩ := compileAddresses_eq_ok h
  exact hr.setAddresses m

theorem Registry.Shaped.outcome_checked (hr : r.Shaped) :
    (do
      let _ ← r.dispatchTable .host
      let _ ← r.dispatchTable .embedded
      pure r : Traced SchemaError Registry).outcome = .ok r := by
  rw [hr.dispatchTable, hr.dispatchTable]
  rfl

/-- Compilation ends as reading does: the check of the dispatch tables never fails. -/
theorem outcome_compile (config : Config) (messages : Source) (addresses : Option Source) :
    (compile config messages addresses).outcome =
      (compileMessages config messages).outcome >>= fun r =>
        match addresses with
        | none => .ok r
        | some source => (compileAddresses config r source).outcome := by
  rw [compile, Traced.outcome_bind]
  cases hr : (compileMessages config messages).outcome with
  | error e => rfl
  | ok r =>
    have hshaped := shaped_of_compileMessages hr
    rw [Outcome.ok_bind, Outcome.ok_bind]
    cases addresses with
    | none => exact hshaped.outcome_checked
    | some source =>
      rw [Traced.outcome_bind]
      dsimp only
      cases hr' : (compileAddresses config r source).outcome with
      | error e => rfl
      | ok r' => exact (shaped_of_compileAddresses hshaped hr').outcome_checked

theorem shaped_of_compile (h : (compile config messages addresses).outcome = .ok r) :
    r.Shaped := by
  rw [outcome_compile] at h
  obtain ⟨base, hbase, h⟩ := Outcome.bind_eq_ok.1 h
  have hshaped := shaped_of_compileMessages hbase
  cases addresses with
  | none =>
    cases h
    exact hshaped
  | some source => exact shaped_of_compileAddresses hshaped h

theorem failsOnly_compile (config : Config) (messages : Source) (addresses : Option Source) :
    Outcome.FailsOnly SchemaError.Located (compile config messages addresses).outcome := by
  rw [outcome_compile]
  refine (failsOnly_compileMessages config messages).bind fun r => ?_
  cases addresses with
  | none => exact Outcome.failsOnly_ok r
  | some source => exact failsOnly_compileAddresses config r source

end Compile

/-- **Compiled registries have a shape.** Names of interfaces are distinct, the member lists in
order are the messages in the order of declaration without repetition, and a message belongs to the
one interface that lists it and has its targets. No input makes compilation fail for want of a
dispatch table. -/
theorem shape_of_compile (config : Config) (messages : Source) (addresses : Option Source) :
    (∀ r, (compile config messages addresses).outcome = .ok r →
      r.Shaped ∧ ∀ d ∈ r.messages, ∀ i ∈ r.interfaces, d.name ∈ i.messages →
        d.interface = i.name ∧ d.targets = i.targets) ∧
    ∀ e, (compile config messages addresses).outcome = .error e →
      ∀ rep name typeId entries, e ≠ .dispatch rep name typeId entries := by
  refine ⟨fun r h => ?_, fun e h => (failsOnly_compile config messages addresses e h).ne_dispatch⟩
  have hr := shaped_of_compile h
  refine ⟨hr, fun d hd i hi hlisted => ?_⟩
  obtain ⟨j, hj, hlisted', howner⟩ := hr.owner d hd
  rw [hr.eq_of_listed hi hj hlisted hlisted']
  exact howner

/-- The second interface of the schema lists its one message behind those of the first. -/
theorem shape_of_paired : Registry.paired.Shaped ∧
    Registry.paired.interfaces.flatMap Interface.messages = ["M", "N", "H"] := by
  obtain ⟨hshaped, -⟩ := (shape_of_compile {} .paired none).1 _ compile_paired
  exact ⟨hshaped, hshaped.members_eq⟩

end WireSchema
