import WireSchema.Proofs.Emit.FilePaths

/-!
# The files of one tree

Both trees are emitted together, one emitter after the other, and each emitter looks at the registry
in its own way: at the messages by their targets, at the interfaces by theirs, at the dispatch
tables.

**Theorem (`artifactsFor_generate`).** The files of a tree are those of the messages of its
representation in the order of declaration, its two enumeration headers, its parser, its
hand-written headers and its build files.

In a compiled registry the interfaces say nothing that the messages do not say: the members of an
interface are the messages that name it, in the order of declaration (`Shaped.members_of_interface`).
-/

namespace WireSchema

namespace Registry

variable {r : Registry} {i : Interface} {d : Descriptor}

/-- The interface that lists a message is the one that the message names. -/
theorem Shaped.mem_messages_iff (hr : r.Shaped) (hi : i ∈ r.interfaces) (hd : d ∈ r.messages) :
    d.name ∈ i.messages ↔ d.interface = i.name := by
  obtain ⟨j, hj, hlisted, hname, -⟩ := hr.owner d hd
  constructor
  · intro h
    rw [hr.eq_of_listed hi hj h hlisted, hname]
  · intro h
    have hsame : j = i :=
      List.inj_on_of_nodup_map hr.interfaces_nodup hj hi (hname.symm.trans h)
    rwa [← hsame]

/-- The members of an interface are the messages that name it. -/
theorem Shaped.members_of_interface (hr : r.Shaped) (hi : i ∈ r.interfaces) :
    i.messages = (r.messages.filter (·.interface == i.name)).map Descriptor.name := by
  obtain ⟨front, back, hsplit⟩ := List.append_of_mem hi
  have hmembers := hr.members_eq
  rw [hsplit, List.flatMap_append, List.flatMap_cons] at hmembers
  have hnodup := hr.names_nodup
  rw [← hmembers, List.nodup_append'] at hnodup
  obtain ⟨-, hbehind, hfront⟩ := hnodup
  obtain ⟨-, -, hback⟩ := List.nodup_append'.1 hbehind
  -- Picking out the members leaves nothing of the other interfaces.
  have hpicked : (r.messages.map Descriptor.name).filter (· ∈ i.messages) = i.messages := by
    rw [← hmembers, List.filter_append, List.filter_append]
    have hnone : (front.flatMap Interface.messages).filter (· ∈ i.messages) = [] := by
      simp only [List.filter_eq_nil_iff, decide_eq_true_eq]
      intro name hname hmem
      exact hfront hname (List.mem_append_left _ hmem)
    have hnone' : (back.flatMap Interface.messages).filter (· ∈ i.messages) = [] := by
      simp only [List.filter_eq_nil_iff, decide_eq_true_eq]
      intro name hname hmem
      exact hback hmem hname
    rw [hnone, hnone', List.nil_append, List.append_nil]
    simp
  rw [List.filter_map] at hpicked
  rw [← hpicked]
  congr 1
  apply List.filter_congr
  intro d hd
  rw [Function.comp_apply, decide_eq_decide.2 (hr.mem_messages_iff hi hd), beq_eq_decide]

end Registry

namespace Emit

/-! ## Emitters -/

def messageFiles (names : OutputNames) : Representation → Descriptor → List Artifact
  | .host => HostClass.artifacts names
  | .embedded => RecordModule.artifacts names

/-- The enumeration headers of a tree. -/
def enumerationFiles (names : OutputNames) (r : Registry) (rep : Representation) : List Artifact :=
  [⟨rep, treeHeader rep s!"{names.typeEnum}.h", render (typeHeader names rep r)⟩,
   ⟨rep, treeHeader rep s!"{names.addressEnum}.h", render (addressHeader names rep r.addresses)⟩]

def parserSource (names : OutputNames) (r : Registry) : Representation → Artifact
  | .host => ⟨.host, ⟨"Parser/src/Parser.cpp"⟩, render (hostParser names (r.wireEntries .host))⟩
  | .embedded =>
    ⟨.embedded, ⟨"src/Msg_Parser.c"⟩, render (recordParser names r (r.wireEntries .embedded))⟩

def parserFiles (names : OutputNames) (r : Registry) (rep : Representation) : List Artifact :=
  match rep with
  | .host =>
    [⟨.host, ⟨"Parser/Parser.h"⟩, render (hostParserHeader names)⟩, parserSource names r .host]
  | .embedded =>
    [⟨.embedded, ⟨"inc/Msg_Parser.h"⟩, render (recordParserHeader names)⟩,
     parserSource names r .embedded]

/-- The build file of a host interface. -/
def interfaceFile (names : OutputNames) (i : Interface) : Artifact :=
  ⟨.host, Path.join ⟨i.name⟩ ⟨"CMakeLists.txt"⟩, render (interfaceBuild names i)⟩

def buildFiles (names : OutputNames) (r : Registry) : Representation → List Artifact
  | .host =>
    (r.interfacesFor .host).map (interfaceFile names) ++
      [⟨.host, ⟨"CMakeLists.txt"⟩, render (hostBuild names r)⟩,
       ⟨.host, ⟨"Parser/CMakeLists.txt"⟩, render (hostParserBuild names r)⟩]
  | .embedded => [⟨.embedded, ⟨"messages.cmake"⟩, render (embeddedBuild names r)⟩]

theorem artifactsFor_append (before after : List Artifact) (rep : Representation) :
    artifactsFor (before ++ after) rep = artifactsFor before rep ++ artifactsFor after rep :=
  List.filter_append ..

theorem mem_artifactsFor {artifacts : List Artifact} {rep : Representation} {a : Artifact} :
    a ∈ artifactsFor artifacts rep ↔ a ∈ artifacts ∧ a.representation = rep := by
  simp [artifactsFor]

theorem artifactsFor_messageArtifacts (names : OutputNames) (rep : Representation)
    (d : Descriptor) : artifactsFor (messageArtifacts names d) rep =
      if d.targets.includes rep then messageFiles names rep d else [] := by
  rw [messageArtifacts, artifactsFor_append]
  cases rep with
  | host =>
    have hother : artifactsFor (if d.targets.embedded then RecordModule.artifacts names d else [])
        .host = [] := by split <;> rfl
    rw [hother, List.append_nil, Targets.includes]
    split <;> rfl
  | embedded =>
    have hother : artifactsFor (if d.targets.host then HostClass.artifacts names d else [])
        .embedded = [] := by split <;> rfl
    rw [hother, List.nil_append, Targets.includes]
    split <;> rfl

theorem artifactsFor_messages (names : OutputNames) (rep : Representation)
    (ds : List Descriptor) : artifactsFor (ds.flatMap (messageArtifacts names)) rep =
      (ds.filter (·.targets.includes rep)).flatMap (messageFiles names rep) := by
  induction ds with
  | nil => rfl
  | cons d ds ih =>
    rw [List.flatMap_cons, artifactsFor_append, artifactsFor_messageArtifacts, ih]
    by_cases h : d.targets.includes rep = true
    · simp [h]
    · simp [h]

theorem artifactsFor_enumerations (names : OutputNames) (r : Registry) (rep : Representation) :
    artifactsFor (enumerationArtifacts names r) rep = enumerationFiles names r rep := by
  cases rep <;> rfl

theorem artifactsFor_parsers (names : OutputNames) (r : Registry) (rep : Representation) :
    artifactsFor (parserArtifacts names r (r.wireEntries .host) (r.wireEntries .embedded)) rep =
      parserFiles names r rep := by
  cases rep <;> rfl

theorem artifactsFor_builds (names : OutputNames) (r : Registry) (rep : Representation) :
    artifactsFor (buildArtifacts names r) rep = buildFiles names r rep := by
  have hhost : (r.interfacesFor .host).map (fun i => (⟨.host,
      Path.join ⟨i.name⟩ ⟨"CMakeLists.txt"⟩, render (interfaceBuild names i)⟩ : Artifact)) =
      (r.interfacesFor .host).map (interfaceFile names) := rfl
  rw [buildArtifacts, artifactsFor_append, hhost]
  cases rep with
  | host =>
    have hall : artifactsFor ((r.interfacesFor .host).map (interfaceFile names)) .host =
        (r.interfacesFor .host).map (interfaceFile names) := by
      simp [artifactsFor, interfaceFile]
    rw [hall]
    rfl
  | embedded =>
    have hnone : artifactsFor ((r.interfacesFor .host).map (interfaceFile names)) .embedded =
        [] := by
      simp [artifactsFor, interfaceFile]
    rw [hnone]
    rfl

/-! ## One tree -/

/-- The files of a tree, emitter by emitter. -/
def treeFiles (names : OutputNames) (s : Supplements) (r : Registry) (rep : Representation) :
    List Artifact :=
  (r.messagesFor rep).flatMap (messageFiles names rep) ++ enumerationFiles names r rep ++
    parserFiles names r rep ++ artifactsFor (supplementArtifacts names s) rep ++
    buildFiles names r rep

/-- Generation succeeds, and each tree has its files. -/
theorem artifactsFor_generate (names : OutputNames) (s : Supplements) {r : Registry}
    (hr : r.Shaped) :
    ∃ artifacts, (generate names s r).outcome = .ok artifacts ∧
      ∀ rep, artifactsFor artifacts rep = treeFiles names s r rep := by
  refine ⟨_, outcome_generate names s hr, fun rep => ?_⟩
  simp only [artifactsFor_append]
  rw [artifactsFor_messages, artifactsFor_enumerations, artifactsFor_parsers, artifactsFor_builds]
  rfl

end Emit

end WireSchema
