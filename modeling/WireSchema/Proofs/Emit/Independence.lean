import WireSchema.Proofs.Emit.Enumerators
import WireSchema.Proofs.Emit.Trees
import WireSchema.Proofs.Schema.Outline

/-!
# A tree does not see the messages of the other

**Theorem (`artifactsFor_independent`).** Let two schemas have the same interfaces and the same
messages by name, in the same order and each message in the same interface. If the declarations
differ at most in messages whose interface is not emitted for a representation, then generation
gives the same files for that representation: the same paths and contents in the same order.

A tree is made from what `Registry.View` collects: all type names, all addresses, and the messages,
interfaces and dispatch entries of its representation (`treeFiles_congr`). None of it looks at the
fields, includes or the mark of a message of the other tree (`view_of_alike`), although type ids are
counted over all messages.
-/

namespace WireSchema

/-! ## What an emitter sees of a registry -/

/-- A message without its place in the schema, which no file tells. -/
def Descriptor.unplaced (d : Descriptor) : Descriptor := { d with location := ⟨"", 0⟩ }

/-- An interface without its place in the schema. -/
def Interface.unplaced (i : Interface) : Interface := { i with location := ⟨"", 0⟩ }

/-- What the files of a tree are made from. -/
structure Registry.View where
  typeNames : List String
  addresses : AddressMap
  messages : List Descriptor
  interfaces : List Interface
  entries : List DispatchEntry

/-- What the files of the tree of `rep` are made from. -/
def Registry.view (r : Registry) (rep : Representation) : Registry.View where
  typeNames := r.typeNames
  addresses := r.addresses
  messages := (r.messagesFor rep).map Descriptor.unplaced
  interfaces := (r.interfacesFor rep).map Interface.unplaced
  entries := r.wireEntries rep

/-- Lists that agree up to what `f` does not look at have the same images. -/
theorem map_of_erased {α β : Type} {erase : α → α} {as bs : List α}
    (h : as.map erase = bs.map erase) {f : α → β} (hf : ∀ a, f (erase a) = f a) :
    as.map f = bs.map f := by
  have hcomp : f ∘ erase = f := funext hf
  have hmap := congrArg (List.map f) h
  rwa [List.map_map, List.map_map, hcomp] at hmap

theorem flatMap_of_erased {α β : Type} {erase : α → α} {as bs : List α}
    (h : as.map erase = bs.map erase) {f : α → List β} (hf : ∀ a, f (erase a) = f a) :
    as.flatMap f = bs.flatMap f := by
  rw [List.flatMap_def, List.flatMap_def, map_of_erased h hf]

namespace Emit

variable {r s : Registry} {rep : Representation}

theorem enumerationFiles_congr (names : OutputNames) (htypes : r.typeNames = s.typeNames)
    (haddresses : r.addresses = s.addresses) :
    enumerationFiles names r rep = enumerationFiles names s rep := by
  simp only [enumerationFiles, typeHeader, typeEnumeration, typeTags, typeNameTable, htypes,
    haddresses]

/-- The files of a message do not tell where it stands. -/
theorem messageFiles_unplaced (names : OutputNames) (rep : Representation) (d : Descriptor) :
    messageFiles names rep d.unplaced = messageFiles names rep d := by
  cases rep <;> rfl

theorem recordParser_congr (names : OutputNames) (entries : List DispatchEntry)
    (h : (r.messagesFor .embedded).map Descriptor.unplaced =
      (s.messagesFor .embedded).map Descriptor.unplaced) :
    recordParser names r entries = recordParser names s entries := by
  have hincludes := map_of_erased h (f := fun d => includeLine s!"../inc/{d.name}.h") fun _ => rfl
  have hcases := flatMap_of_erased h (f := serializeAnyCase) fun _ => rfl
  rw [recordParser, recordParser, recordSerializeAny, recordSerializeAny, hincludes, hcases]

theorem parserFiles_congr (names : OutputNames) (h : r.view rep = s.view rep) :
    parserFiles names r rep = parserFiles names s rep := by
  have hentries : r.wireEntries rep = s.wireEntries rep := congrArg Registry.View.entries h
  cases rep with
  | host => rw [parserFiles, parserFiles, parserSource, parserSource, hentries]
  | embedded =>
    rw [parserFiles, parserFiles, parserSource, parserSource, hentries,
      recordParser_congr names _ (congrArg Registry.View.messages h)]

theorem buildFiles_congr (names : OutputNames)
    (h : (r.interfacesFor rep).map Interface.unplaced =
      (s.interfacesFor rep).map Interface.unplaced) :
    buildFiles names r rep = buildFiles names s rep := by
  cases rep with
  | host =>
    have hfiles := map_of_erased h (f := interfaceFile names) fun _ => rfl
    have hadded := map_of_erased h (f := fun i => s!"add_subdirectory({i.name})") fun _ => rfl
    have hlinked := map_of_erased h (f := fun i => s!"\t{i.name}") fun _ => rfl
    rw [buildFiles, buildFiles, hostBuild, hostBuild, hostParserBuild, hostParserBuild, hfiles,
      hadded, hlinked]
  | embedded =>
    have hblocks := flatMap_of_erased h (f := interfaceSources) fun _ => rfl
    have hnamed :=
      map_of_erased h (f := fun i => "\t" ++ cmakeRef (sourcesVariable i)) fun _ => rfl
    rw [buildFiles, buildFiles, embeddedBuild, embeddedBuild, hblocks, hnamed]

/-- The files of a tree are made from its view. -/
theorem treeFiles_congr (names : OutputNames) (supplements : Supplements)
    (h : r.view rep = s.view rep) :
    treeFiles names supplements r rep = treeFiles names supplements s rep := by
  have hmessages := flatMap_of_erased (congrArg Registry.View.messages h)
    (messageFiles_unplaced names rep)
  rw [treeFiles, treeFiles, hmessages,
    enumerationFiles_congr names (congrArg Registry.View.typeNames h)
      (congrArg Registry.View.addresses h),
    parserFiles_congr names h, buildFiles_congr names (congrArg Registry.View.interfaces h)]

end Emit

/-! ## Messages that look alike to a tree -/

/-- Two messages differ at most in what the tree of `rep` does not have. -/
structure Descriptor.Alike (rep : Representation) (d e : Descriptor) : Prop where
  name : d.name = e.name
  interface : d.interface = e.interface
  targets : d.targets = e.targets
  unplaced : d.targets.includes rep = true → d.unplaced = e.unplaced

theorem Descriptor.Alike.isWire_eq {rep : Representation} {d e : Descriptor} (h : d.Alike rep e) :
    d.isWire rep = e.isWire rep := by
  rw [isWire, isWire, ← h.targets]
  by_cases hincludes : d.targets.includes rep = true
  · have hinternal : d.unplaced.internal = e.unplaced.internal := by rw [h.unplaced hincludes]
    change d.internal = e.internal at hinternal
    rw [hinternal]
  · rw [Bool.eq_false_iff.2 hincludes]
    rfl

/-- What is picked from two lists of related items agrees when the items picked do. -/
theorem map_filter_of_forall₂ {α β : Type} {R : α → α → Prop} {p : α → Bool} {f : α → β}
    {as bs : List α} (h : List.Forall₂ R as bs) (hp : ∀ a b, R a b → p a = p b)
    (hf : ∀ a b, R a b → p a = true → f a = f b) :
    (as.filter p).map f = (bs.filter p).map f := by
  induction h with
  | nil => rfl
  | @cons a b as bs hab _ ih =>
    by_cases ha : p a = true
    · have hb : p b = true := (hp a b hab).symm.trans ha
      rw [List.filter_cons_of_pos ha, List.filter_cons_of_pos hb, List.map_cons, List.map_cons,
        hf a b hab ha, ih]
    · have hb : ¬p b = true := fun hb => ha ((hp a b hab).trans hb)
      rw [List.filter_cons_of_neg ha, List.filter_cons_of_neg hb, ih]

theorem forall₂_zipIdx {α : Type} {R : α → α → Prop} {as bs : List α}
    (h : List.Forall₂ R as bs) (start : Nat) :
    List.Forall₂ (fun a b => R a.1 b.1 ∧ a.2 = b.2) (as.zipIdx start) (bs.zipIdx start) := by
  induction h generalizing start with
  | nil => exact .nil
  | cons hab _ ih => exact .cons ⟨hab, rfl⟩ (ih (start + 1))

namespace Registry

variable {r s : Registry} {rep : Representation}

theorem map_name_of_alike (h : List.Forall₂ (Descriptor.Alike rep) r.messages s.messages) :
    r.messages.map Descriptor.name = s.messages.map Descriptor.name := by
  rw [← List.forall₂_eq_eq_eq, List.forall₂_map_left_iff, List.forall₂_map_right_iff]
  exact h.imp fun _ _ halike => halike.name

/-- Type ids are counted over all messages, so the entries agree with their ids. -/
theorem wireEntries_of_alike (h : List.Forall₂ (Descriptor.Alike rep) r.messages s.messages) :
    r.wireEntries rep = s.wireEntries rep := by
  refine map_filter_of_forall₂ (forall₂_zipIdx h 1) ?_ ?_
  · intro p q hpq
    exact hpq.1.isWire_eq
  · intro p q hpq _
    rw [hpq.1.name, hpq.2]

/-- An interface of a compiled registry is given by its name and the messages that name it. -/
theorem Shaped.unplaced_interface {config : Config} (hr : r.Shaped) (hnamed : r.Named config)
    {i : Interface} (hi : i ∈ r.interfaces) :
    i.unplaced = ⟨i.name, Targets.ofName config.infixes i.name, ⟨"", 0⟩,
      (r.messages.filter (·.interface == i.name)).map Descriptor.name⟩ := by
  rw [Interface.unplaced, ← hr.members_of_interface hi, ← hnamed.interface i hi]

theorem interfacesFor_of_alike {config : Config} (hr : r.Shaped) (hrn : r.Named config)
    (hs : s.Shaped) (hsn : s.Named config)
    (hinterfaces : r.interfaces.map Interface.name = s.interfaces.map Interface.name)
    (h : List.Forall₂ (Descriptor.Alike rep) r.messages s.messages) :
    (r.interfacesFor rep).map Interface.unplaced = (s.interfacesFor rep).map Interface.unplaced := by
  have hmembers : ∀ name, (r.messages.filter (·.interface == name)).map Descriptor.name =
      (s.messages.filter (·.interface == name)).map Descriptor.name := by
    intro name
    refine map_filter_of_forall₂ h ?_ fun d e halike _ => halike.name
    intro d e halike
    simp only [halike.interface]
  have hall : r.interfaces.map Interface.unplaced = s.interfaces.map Interface.unplaced := by
    rw [List.map_congr_left fun i hi => hr.unplaced_interface hrn hi,
      List.map_congr_left fun i hi => hs.unplaced_interface hsn hi]
    simp only [hmembers]
    have hmap := congrArg (List.map fun name => (⟨name, Targets.ofName config.infixes name,
      ⟨"", 0⟩, (s.messages.filter (·.interface == name)).map Descriptor.name⟩ : Interface))
      hinterfaces
    rw [List.map_map, List.map_map] at hmap
    exact hmap
  have htargets : (fun i : Interface => i.targets.includes rep) =
      (fun i : Interface => i.targets.includes rep) ∘ Interface.unplaced := rfl
  rw [interfacesFor, interfacesFor, htargets, ← List.filter_map, ← List.filter_map, hall]

/-- Registries whose messages look alike to a tree give it one view. -/
theorem view_of_alike {config : Config} (hr : r.Shaped) (hrn : r.Named config) (hs : s.Shaped)
    (hsn : s.Named config) (haddresses : r.addresses = s.addresses)
    (hinterfaces : r.interfaces.map Interface.name = s.interfaces.map Interface.name)
    (h : List.Forall₂ (Descriptor.Alike rep) r.messages s.messages) :
    r.view rep = s.view rep := by
  have hmessages : (r.messagesFor rep).map Descriptor.unplaced =
      (s.messagesFor rep).map Descriptor.unplaced := by
    refine map_filter_of_forall₂ h ?_ fun d e halike => halike.unplaced
    intro d e halike
    rw [halike.targets]
  rw [view, view, typeNames, typeNames, map_name_of_alike h, haddresses, hmessages,
    interfacesFor_of_alike hr hrn hs hsn hinterfaces h, wireEntries_of_alike h]

end Registry

/-! ## Schemas that look alike to a tree -/

/-- Two declarations agree, but for what a message of an interface not emitted for `rep` holds. -/
structure Declared.SameFor (config : Config) (rep : Representation) (m n : Declared) : Prop where
  interface : m.interface = n.interface
  name : m.declaration.name = n.declaration.name
  declaration : (Targets.ofName config.infixes m.interface).includes rep = true →
    m.declaration = n.declaration

/-- Two schemas declare the same interfaces and messages, and agree on those of `rep`. -/
structure Outline.SameFor (config : Config) (rep : Representation) (o p : Outline) : Prop where
  interfaces : o.interfaces = p.interfaces
  messages : List.Forall₂ (Declared.SameFor config rep) o.messages p.messages

theorem Declared.SameFor.alike {config : Config} {rep : Representation} {m n : Declared}
    {d e : Descriptor} (h : m.SameFor config rep n) (hd : m.Builds config d)
    (he : n.Builds config e) : d.Alike rep e := by
  refine ⟨?_, ?_, ?_, fun hincludes => ?_⟩
  · rw [hd.name, he.name, h.name]
  · rw [hd.interface, he.interface, h.interface]
  · rw [hd.targets, he.targets, h.interface]
  · rw [hd.targets] at hincludes
    have hsame : m = n := by
      cases m
      cases n
      rw [Declared.mk.injEq]
      exact ⟨h.interface, h.declaration hincludes⟩
    rw [hsame] at hd
    rw [hd.congr he]
    rfl

theorem forall₂_alike {config : Config} {rep : Representation} {ms ns : List Declared}
    {ds es : List Descriptor} (h : List.Forall₂ (Declared.SameFor config rep) ms ns)
    (hd : List.Forall₂ (Declared.Builds config) ms ds)
    (he : List.Forall₂ (Declared.Builds config) ns es) :
    List.Forall₂ (Descriptor.Alike rep) ds es := by
  induction h generalizing ds es with
  | nil =>
    cases hd
    cases he
    exact .nil
  | cons hmn _ ih =>
    cases hd with
    | cons hd hds =>
      cases he with
      | cons he hes => exact .cons (hmn.alike hd he) (ih hds hes)

/-- Addresses come from the address schema alone. -/
theorem addresses_of_compile {config : Config} {first second : Source} {addresses : Option Source}
    {r s : Registry} (hr : (compile config first addresses).outcome = .ok r)
    (hs : (compile config second addresses).outcome = .ok s) : r.addresses = s.addresses := by
  obtain ⟨⟨base, hbase, hrest⟩, -⟩ := compile_eq_ok hr
  obtain ⟨⟨other, hother, hrest'⟩, -⟩ := compile_eq_ok hs
  rcases hrest with ⟨hnone, rfl⟩ | ⟨source, hsome, hsource⟩
  · rcases hrest' with ⟨-, rfl⟩ | ⟨source, hsome, -⟩
    · rw [addresses_of_compileMessages hbase, addresses_of_compileMessages hother]
    · rw [hnone] at hsome
      cases hsome
  · rcases hrest' with ⟨hnone, -⟩ | ⟨source', hsome', hsource'⟩
    · rw [hnone] at hsome
      cases hsome
    · rw [hsome] at hsome'
      cases hsome'
      obtain ⟨m, hm, -, rfl⟩ := compileAddresses_eq_ok hsource
      obtain ⟨m', hm', -, rfl⟩ := compileAddresses_eq_ok hsource'
      exact Except.ok.inj (hm.symm.trans hm')

/-- What the messages of the other tree hold changes no file of this one. -/
theorem artifactsFor_independent {config : Config} {first second : Source}
    {addresses : Option Source} {r s : Registry} {rep : Representation} (names : OutputNames)
    (supplements : Emit.Supplements) (hr : (compile config first addresses).outcome = .ok r)
    (hs : (compile config second addresses).outcome = .ok s)
    (hsame : (first.outline config.markers).SameFor config rep (second.outline config.markers)) :
    ∃ before after, (generate names supplements r).outcome = .ok before ∧
      (generate names supplements s).outcome = .ok after ∧
      artifactsFor before rep = artifactsFor after rep := by
  have hry := yields_of_compile hr
  have hsy := yields_of_compile hs
  have halike := forall₂_alike hsame.messages hry.messages hsy.messages
  have hinterfaces : r.interfaces.map Interface.name = s.interfaces.map Interface.name := by
    rw [hry.interfaces, hsy.interfaces, hsame.interfaces]
  have hview := Registry.view_of_alike (shaped_of_compile hr) (named_of_compile hr)
    (shaped_of_compile hs) (named_of_compile hs) (addresses_of_compile hr hs) hinterfaces halike
  obtain ⟨before, hbefore, hfirst⟩ :=
    Emit.artifactsFor_generate names supplements (shaped_of_compile hr)
  obtain ⟨after, hafter, hsecond⟩ :=
    Emit.artifactsFor_generate names supplements (shaped_of_compile hs)
  refine ⟨before, after, hbefore, hafter, ?_⟩
  rw [hfirst, hsecond, Emit.treeFiles_congr names supplements hview]

instance {config : Config} {rep : Representation} {m n : Declared} :
    Decidable (m.SameFor config rep n) :=
  decidable_of_iff (m.interface = n.interface ∧ m.declaration.name = n.declaration.name ∧
      ((Targets.ofName config.infixes m.interface).includes rep = true →
        m.declaration = n.declaration))
    ⟨fun h => ⟨h.1, h.2.1, h.2.2⟩, fun h => ⟨h.interface, h.name, h.declaration⟩⟩

/-- An embedded message and a host message, which is declared with `parts`. -/
def Source.hosting (parts : String) : Source := ⟨"m", "*FC_\nM\n*GS_\nH" ++ parts⟩

/-- What `Source.hosting` declares, with the includes of the host message and its mark. -/
def Registry.hosting (includes : List String) (internal : Bool) : Registry where
  interfaces := [⟨"FC_", ⟨false, true⟩, ⟨"m", 1⟩, ["M"]⟩, ⟨"GS_", ⟨true, false⟩, ⟨"m", 3⟩, ["H"]⟩]
  messages :=
    [⟨"M", "FC_", ⟨false, true⟩, [], [], false, ⟨"m", 2⟩⟩,
      ⟨"H", "GS_", ⟨true, false⟩, [], includes, internal, ⟨"m", 4⟩⟩]

theorem artifactsFor_independent_hosting :
    (compile {} (.hosting " --internal") none).outcome = .ok (.hosting [] true) ∧
      (compile {} (.hosting " --include q.h") none).outcome = .ok (.hosting ["q.h"] false) ∧
      ∃ before after, (generate {} {} (.hosting [] true)).outcome = .ok before ∧
        (generate {} {} (.hosting ["q.h"] false)).outcome = .ok after ∧
        artifactsFor before .embedded = artifactsFor after .embedded := by
  have hfirst : (compile {} (.hosting " --internal") none).outcome = .ok (.hosting [] true) :=
    Outcome.of_toOption (by decide +kernel)
  have hsecond : (compile {} (.hosting " --include q.h") none).outcome =
      .ok (.hosting ["q.h"] false) := Outcome.of_toOption (by decide +kernel)
  refine ⟨hfirst, hsecond, artifactsFor_independent {} {} hfirst hsecond ?_⟩
  exact ⟨by decide +kernel, by decide +kernel⟩

end WireSchema
