import Mathlib.Data.List.Forall2
import WireSchema.Proofs.Schema.Build
import WireSchema.Proofs.Schema.Compile
import WireSchema.Proofs.Text

/-!
# What a schema declares

The outline of a schema is read off its lines alone: the names of its interfaces, and its messages
with the interface that each stands in and the parts of its declaration. Neither the types of fields
nor the targets of interfaces have been looked up in it.

**Theorem (`yields_of_compile`).** A compiled registry has the interfaces and the messages of the
outline of its schema, in the same order, and each message is what its declaration says under the
configuration.

So a message depends on nothing but its declaration and the name of its interface
(`Declared.Builds.congr`), and the name of an interface is one word (`isSpace_of_mem_interface`).
-/

namespace WireSchema

/-! ## Outlines -/

/-- A message as it is declared. -/
structure Declared where
  /-- The interface that it stands in. -/
  interface : String
  declaration : Declaration
deriving Repr, DecidableEq

/-- The interfaces and messages that a schema declares, in order. -/
structure Outline where
  interfaces : List String := []
  messages : List Declared := []
  /-- The interface that is open. -/
  current : Option String := none
deriving Repr, DecidableEq

namespace Outline

def take (o : Outline) (line : Line) : Outline :=
  match line.directive with
  | .opened name => { o with interfaces := o.interfaces ++ [name], current := some name }
  | .closed => { o with current := none }
  | .declared text =>
    match o.current, Declaration.parse line.location text with
    | some interface, .ok declaration =>
      { o with messages := o.messages ++ [⟨interface, declaration⟩] }
    | _, _ => o

/-- Takes the lines that are well formed. -/
def takeAll (o : Outline) (lines : List (Except SchemaError Line)) : Outline :=
  (lines.filterMap Except.toOption).foldl take o

end Outline

/-- The outline of a schema. -/
def Source.outline (markers : Markers) (source : Source) : Outline :=
  Outline.takeAll {} (Line.readAll markers source.file source.text)

/-! ## From declarations to messages -/

theorem Outcome.forall₂_of_mapM {ε α β : Type} {f : α → Except ε β} {items : List α}
    {results : List β} (h : items.mapM f = .ok results) :
    List.Forall₂ (fun a b => f a = .ok b) items results := by
  induction items generalizing results with
  | nil =>
    cases h
    exact .nil
  | cons a items ih =>
    obtain ⟨b, rest, hb, hrest, rfl⟩ := Outcome.mapM_cons_eq_ok.1 h
    exact .cons hb (ih hrest)

/-- Every member of a declaration became a field. -/
theorem Field.forall₂_build {config : Config} {location : Location} {members : List (String × String)}
    {fields : List Field} (h : (members.mapM fun m =>
      (Field.build config m.1 m.2).mapError (SchemaError.malformed location ·)) = .ok fields) :
    List.Forall₂ (fun part f => Field.build config part.1 part.2 = .ok f) members fields := by
  exact (Outcome.forall₂_of_mapM h).imp fun part f hf => Outcome.mapError_eq_ok.1 hf

/-- `d` is the message that `m` declares. Where it stands in the schema does not matter. -/
structure Declared.Builds (config : Config) (m : Declared) (d : Descriptor) : Prop where
  name : d.name = m.declaration.name
  interface : d.interface = m.interface
  targets : d.targets = Targets.ofName config.infixes m.interface
  fields : List.Forall₂ (fun part f => Field.build config part.1 part.2 = .ok f)
    m.declaration.members d.fields
  includes : d.includes = m.declaration.includes
  internal : d.internal = m.declaration.internal

theorem Declared.builds_of_build {config : Config} {interface : Interface} {location : Location}
    {text : String} {declaration : Declaration} {d : Descriptor}
    (hparse : Declaration.parse location text = .ok declaration)
    (htargets : interface.targets = Targets.ofName config.infixes interface.name)
    (h : Descriptor.build config interface location text = .ok d) :
    Builds config ⟨interface.name, declaration⟩ d := by
  rw [Descriptor.build, hparse] at h
  obtain ⟨fields, hfields, rfl, -⟩ := Descriptor.ofDeclaration_eq_ok h
  exact ⟨rfl, rfl, htargets, Field.forall₂_build hfields, rfl, rfl⟩

/-- Two messages of one declaration differ at most in where they stand in their schemas. -/
theorem Declared.Builds.congr {config : Config} {m : Declared} {d e : Descriptor}
    (hd : m.Builds config d) (he : m.Builds config e) :
    d = { e with location := d.location } := by
  have hfields : d.fields = e.fields := by
    refine Relator.RightUnique.forall₂ ?_ hd.fields he.fields
    intro part f g hf hg
    exact Except.ok.inj (hf.symm.trans hg)
  have hname := hd.name.trans he.name.symm
  have hinterface := hd.interface.trans he.interface.symm
  have htargets := hd.targets.trans he.targets.symm
  have hincludes := hd.includes.trans he.includes.symm
  have hinternal := hd.internal.trans he.internal.symm
  rw [← hname, ← hinterface, ← htargets, ← hfields, ← hincludes, ← hinternal]

/-! ## Runs -/

/-- The registry has the interfaces and messages of the outline. -/
structure Outline.Yields (config : Config) (o : Outline) (r : Registry) : Prop where
  interfaces : r.interfaces.map Interface.name = o.interfaces
  messages : List.Forall₂ (Declared.Builds config) o.messages r.messages

/-- Listing a message changes no name. -/
theorem Registry.map_name_addMember {interface message : String} {before after : List Interface}
    (h : addMember interface message before = some after) :
    after.map Interface.name = before.map Interface.name := by
  induction before generalizing after with
  | nil => cases h
  | cons i before ih =>
    rw [addMember] at h
    split at h
    · cases h
      rfl
    · obtain ⟨rest, hrest, rfl⟩ := Option.map_eq_some_iff.1 h
      rw [List.map_cons, List.map_cons, ih hrest]

namespace Compilation

variable {config : Config} {c c' : Compilation} {o : Outline} {line : Line}

/-- The compiler and the outline have read the same lines. -/
structure Reads (config : Config) (o : Outline) (c : Compilation) : Prop where
  registry : o.Yields config c.registry
  current : c.current.map Interface.name = o.current
  targets : ∀ i, c.current = some i → i.targets = Targets.ofName config.infixes i.name

theorem Step.reads (h : Step config c line c') (hc : Reads config o c) :
    Reads config (o.take line) c' := by
  cases h with
  | opened hline hpush =>
    obtain ⟨-, rfl⟩ := Registry.pushInterface_eq_ok hpush
    rw [Outline.take, hline]
    refine ⟨⟨?_, hc.registry.messages⟩, rfl, ?_⟩
    · rw [List.map_append, hc.registry.interfaces]
      rfl
    · intro i hi
      cases hi
      rfl
  | closed hline hcurrent =>
    rw [Outline.take, hline]
    refine ⟨⟨hc.registry.interfaces, hc.registry.messages⟩, rfl, ?_⟩
    intro i hi
    cases hi
  | declared hline hcurrent hbuild hpush =>
    obtain ⟨declaration, hparse, -⟩ := Outcome.bind_eq_ok.1 hbuild
    obtain ⟨-, -, -, -, interfaces, hadd, rfl⟩ := Registry.pushMessage_eq_ok hpush
    have hopen := hc.current
    rw [hcurrent, Option.map_some] at hopen
    simp only [Outline.take, hline, ← hopen, hparse]
    have hd := Declared.builds_of_build hparse (hc.targets _ hcurrent) hbuild
    refine ⟨⟨?_, ?_⟩, hc.current.trans hopen.symm, hc.targets⟩
    · rw [Registry.map_name_addMember hadd]
      exact hc.registry.interfaces
    · exact List.rel_append hc.registry.messages (.cons hd .nil)

/-- A run that succeeds has read all lines. -/
theorem reads_of_run {lines : List (Except SchemaError Line)} (hc : Reads config o c)
    (h : (c.run config lines).outcome = .ok c') : Reads config (o.takeAll lines) c' := by
  induction lines generalizing c o with
  | nil =>
    cases h
    exact hc
  | cons line lines ih =>
    unfold run at h ih
    rw [List.foldlM_cons] at h
    obtain ⟨next, hnext, hrest⟩ := Traced.bind_eq_ok.1 h
    obtain ⟨taken, htaken, hstep⟩ := Traced.bind_eq_ok.1 hnext
    have hline : line = .ok taken := htaken
    rw [hline]
    exact ih ((step_of_eq_ok hstep).reads hc) hrest

end Compilation

/-- A compiled registry has the interfaces and the messages of the outline of its schema. -/
theorem yields_of_compile {config : Config} {messages : Source} {addresses : Option Source}
    {r : Registry} (h : (compile config messages addresses).outcome = .ok r) :
    (messages.outline config.markers).Yields config r := by
  obtain ⟨⟨base, hbase, haddresses⟩, -⟩ := compile_eq_ok h
  obtain ⟨c, hrun, rfl⟩ := compileMessages_eq_ok hbase
  have hstart : Compilation.Reads config {} {} := by
    refine ⟨⟨rfl, .nil⟩, rfl, ?_⟩
    intro i hi
    cases hi
  have hreads := Compilation.reads_of_run hstart hrun
  rcases haddresses with ⟨-, rfl⟩ | ⟨source, -, haddresses⟩
  · exact hreads.registry
  · obtain ⟨m, -, -, rfl⟩ := compileAddresses_eq_ok haddresses
    exact ⟨hreads.registry.interfaces, hreads.registry.messages⟩

/-! ## Names of interfaces -/

/-- What opens an interface is one word. -/
theorem Directive.isSpace_of_ofMarked {rest : List Char} {name : String}
    (h : ofMarked rest = .ok (.opened name)) : ∀ c ∈ name.toList, Text.isSpace c = false := by
  cases rest with
  | nil => cases h
  | cons c rest =>
    rw [ofMarked] at h
    split at h
    · cases h
    · split at h
      · cases h
      · rename_i word hwords
        cases h
        have hmem : word ∈ Text.wordsChars (c :: rest) := by
          rw [hwords]
          exact List.mem_cons_self
        rw [String.toList_ofList]
        exact Text.not_of_mem_splitWhere (List.mem_of_mem_filter hmem)
      · cases h
        exact fun _ hc => absurd hc List.not_mem_nil

theorem Line.isSpace_of_mem_readAll {markers : Markers} {file text name : String}
    {location : Location} (h : .ok ⟨location, .opened name⟩ ∈ readAll markers file text) :
    ∀ c ∈ name.toList, Text.isSpace c = false := by
  obtain ⟨⟨raw, number⟩, -, hline⟩ := List.mem_filterMap.1 h
  obtain ⟨outcome, houtcome, hline⟩ := Option.map_eq_some_iff.1 hline
  cases outcome with
  | error fault => cases hline
  | ok directive =>
    cases hline
    unfold Directive.ofLine? at houtcome
    split at houtcome
    · cases houtcome
    · split at houtcome
      · cases houtcome
      · split at houtcome
        · exact Directive.isSpace_of_ofMarked (Option.some.inj houtcome)
        · cases houtcome

theorem Outline.opened_of_mem_takeAll {o : Outline} {lines : List (Except SchemaError Line)}
    {name : String} (h : name ∈ (o.takeAll lines).interfaces) :
    name ∈ o.interfaces ∨ ∃ location, .ok ⟨location, .opened name⟩ ∈ lines := by
  induction lines generalizing o with
  | nil => exact .inl h
  | cons line lines ih =>
    cases line with
    | error e =>
      rcases ih (o := o) h with h | ⟨location, h⟩
      · exact .inl h
      · exact .inr ⟨location, List.mem_cons_of_mem _ h⟩
    | ok line =>
      rcases ih (o := o.take line) h with h | ⟨location, h⟩
      · unfold take at h
        split at h
        · rename_i opened hopened
          rcases List.mem_append.1 h with h | h
          · exact .inl h
          · rw [List.mem_singleton.1 h, ← hopened]
            exact .inr ⟨line.location, List.mem_cons_self⟩
        · exact .inl h
        · split at h
          · exact .inl h
          · exact .inl h
      · exact .inr ⟨location, List.mem_cons_of_mem _ h⟩

/-- The name of an interface has no white space in it. -/
theorem isSpace_of_mem_interface {config : Config} {messages : Source} {addresses : Option Source}
    {r : Registry} (h : (compile config messages addresses).outcome = .ok r) {i : Interface}
    (hi : i ∈ r.interfaces) : ∀ c ∈ i.name.toList, Text.isSpace c = false := by
  have hname : i.name ∈ (messages.outline config.markers).interfaces := by
    rw [← (yields_of_compile h).interfaces]
    exact List.mem_map_of_mem hi
  rcases Outline.opened_of_mem_takeAll hname with hname | ⟨location, hline⟩
  · cases hname
  · exact Line.isSpace_of_mem_readAll hline

end WireSchema
