import Mathlib.Data.List.Flatten
import Mathlib.Data.List.Perm.Basic
import Mathlib.Data.Prod.Basic
import WireSchema.Generate
import WireSchema.Proofs.Disk.Spelling
import WireSchema.Proofs.Schema.Shape

/-!
# Paths of the generated files

The files of a tree come from emitters that do not know of each other. Each of them is a header, a
source or a build file, and its path is made of a directory, a stem and an ending that says which of
the three it is (`Spot`, `Spot.file`). So only files of one kind can meet, and they meet when they
have the same spot (`paths_nodup_iff_spots`).

**Theorem (`paths_nodup_iff`).** Every schema that compiles under a valid configuration can be
generated. The host files have pairwise different paths exactly if the shared headers have different
names and the interfaces have different directories, none of which is that of the parser; the
embedded files exactly if the messages, the parser and the shared headers have different names.
-/

namespace WireSchema

/-! ## Names of a compiled registry -/

theorem Naming.slash_not_mem {s : String} (h : isIdentifier s = true) : '/' ∉ s.toList := by
  have hslash : ('/'.isAlpha || '/' == '_') = false ∧
      (isAsciiAlphanum '/' || '/' == '_') = false := by decide
  unfold isIdentifier at h
  cases hs : s.toList with
  | nil => simp
  | cons c cs =>
    rw [hs, isIdentifierChars, Bool.and_eq_true, List.all_eq_true] at h
    intro hmem
    rcases List.mem_cons.1 hmem with hc | hcs
    · rw [← hc, hslash.1] at h
      exact Bool.false_ne_true h.1
    · have hrest := h.2 '/' hcs
      rw [hslash.2] at hrest
      exact Bool.false_ne_true hrest

/-- An identifier with an ending is a name. -/
theorem isName_append {stem ending : String} (hstem : Naming.isIdentifier stem = true)
    (hending : 2 ≤ ending.length ∧ '/' ∉ ending.toList) : IsName (stem ++ ending) := by
  have hlong : 2 < (stem ++ ending).length := by
    have hne : stem.length ≠ 0 := by
      intro hzero
      rw [String.length_eq_zero_iff.1 hzero] at hstem
      exact absurd hstem (by decide)
    rw [String.length_append]
    omega
  refine ⟨?_, ?_, ?_, ?_⟩
  · intro h
    simp [h] at hlong
  · intro h
    rw [h] at hlong
    exact absurd hlong (by decide)
  · intro h
    rw [h] at hlong
    exact absurd hlong (by decide)
  · rw [String.toList_append, List.mem_append, not_or]
    exact ⟨Naming.slash_not_mem hstem, hending.2⟩

/-- Messages are called by identifiers, and the name of an interface gives it its targets. -/
structure Registry.Named (config : Config) (r : Registry) : Prop where
  message : ∀ d ∈ r.messages, Naming.isIdentifier d.name = true
  interface : ∀ i ∈ r.interfaces, i.targets = Targets.ofName config.infixes i.name

theorem Registry.mem_addMember {interface message : String} {before after : List Interface}
    (h : addMember interface message before = some after) :
    ∀ i ∈ after, ∃ j ∈ before, i.name = j.name ∧ i.targets = j.targets := by
  induction before generalizing after with
  | nil => cases h
  | cons j rest ih =>
    rw [addMember] at h
    split at h
    · cases h
      intro i hi
      rcases List.mem_cons.1 hi with rfl | hi
      · exact ⟨j, List.mem_cons_self, rfl, rfl⟩
      · exact ⟨i, List.mem_cons_of_mem _ hi, rfl, rfl⟩
    · obtain ⟨others, hothers, rfl⟩ := Option.map_eq_some_iff.1 h
      intro i hi
      rcases List.mem_cons.1 hi with rfl | hi
      · exact ⟨i, List.mem_cons_self, rfl, rfl⟩
      · obtain ⟨k, hk, hsame⟩ := ih hothers i hi
        exact ⟨k, List.mem_cons_of_mem _ hk, hsame⟩

theorem Compilation.Step.named {config : Config} {c c' : Compilation} {line : Line}
    (h : Step config c line c') (hc : c.registry.Named config) : c'.registry.Named config := by
  cases h with
  | opened _ hpush =>
    obtain ⟨-, rfl⟩ := Registry.pushInterface_eq_ok hpush
    refine ⟨hc.message, fun i hi => ?_⟩
    rcases List.mem_append.1 hi with hi | hi
    · exact hc.interface i hi
    · rw [List.mem_singleton.1 hi]
      rfl
  | closed => exact hc
  | declared _ _ hbuild hpush =>
    obtain ⟨-, -, -, -, interfaces, hadd, rfl⟩ := Registry.pushMessage_eq_ok hpush
    refine ⟨fun d hd => ?_, fun i hi => ?_⟩
    · rcases List.mem_append.1 hd with hd | hd
      · exact hc.message d hd
      · rw [List.mem_singleton.1 hd]
        exact Descriptor.isIdentifier_of_build hbuild
    · obtain ⟨j, hj, hname, htargets⟩ := Registry.mem_addMember hadd i hi
      rw [htargets, hname]
      exact hc.interface j hj

theorem named_of_compile {config : Config} {messages : Source} {addresses : Option Source}
    {r : Registry} (h : (compile config messages addresses).outcome = .ok r) :
    r.Named config := by
  obtain ⟨⟨base, hbase, haddresses⟩, -⟩ := compile_eq_ok h
  obtain ⟨c, hrun, rfl⟩ := compileMessages_eq_ok hbase
  have hempty : Registry.Named config {} := ⟨by simp, by simp⟩
  have hnamed : c.registry.Named config :=
    Compilation.run_induction (P := fun c => c.registry.Named config) Compilation.Step.named
      hempty hrun
  rcases haddresses with ⟨-, rfl⟩ | ⟨source, -, haddresses⟩
  · exact hnamed
  · obtain ⟨m, -, -, rfl⟩ := compileAddresses_eq_ok haddresses
    exact ⟨hnamed.message, hnamed.interface⟩

/-- The names that a valid configuration gives to generated code are identifiers. -/
theorem Config.isIdentifier_of_fault? {config : Config} (h : config.fault? = none) :
    Naming.isIdentifier config.output.spaceName = true ∧
      Naming.isIdentifier config.output.typeEnum = true ∧
      Naming.isIdentifier config.output.addressEnum = true := by
  unfold fault? at h
  dsimp only at h
  split_ifs at h with hinfix hequal hmarker hcomment hmarkers hstream
  · split at h
    · cases h
    · cases h
  · split at h
    · cases h
    · rw [Option.map_eq_none_iff, List.find?_eq_none] at h
      have hspace := h ("namespace", config.output.spaceName) (by simp)
      have htype := h ("type_enum", config.output.typeEnum) (by simp)
      have haddress := h ("address_enum", config.output.addressEnum) (by simp)
      simp only [Bool.not_eq_true', Bool.not_eq_false] at hspace htype haddress
      exact ⟨hspace, htype, haddress⟩

/-- What a valid configuration promises about the names in generated code and the infixes. -/
theorem Config.of_fault? {config : Config} (h : config.fault? = none) :
    config.infixes.host ≠ "" ∧ Naming.isIdentifier config.output.typeEnum = true ∧
      Naming.isIdentifier config.output.addressEnum = true := by
  refine ⟨?_, (isIdentifier_of_fault? h).2⟩
  intro hempty
  simp [fault?, hempty] at h

/-- A host interface has a name. -/
theorem Registry.Named.name_ne_empty {config : Config} {r : Registry} (hr : r.Named config)
    (hvalid : config.fault? = none) {i : Interface} (hi : i ∈ r.interfacesFor .host) :
    i.name ≠ "" := by
  obtain ⟨hi, hhost⟩ := List.mem_filter.1 hi
  intro hempty
  have htargets := hr.interface i hi
  rw [hempty] at htargets
  rw [htargets] at hhost
  have hinfix : config.infixes.host.toList = [] := by
    simpa [Targets.includes, Targets.ofName, Text.contains, Text.occursIn] using hhost
  exact (Config.of_fault? hvalid).1 (String.toList_inj.1 hinfix)

/-! ## Spots -/

namespace Emit

/-- A directory of a tree and the stem of a file in it. -/
abbrev Spot := List Component × String

/-- The components of the path of a file: its directory, further names and the file. -/
def Spot.file (names : List String) (ending : String) (s : Spot) : List Component :=
  s.1 ++ names.map .normal ++ [.normal (s.2 ++ ending)]

theorem Spot.file_injective (names : List String) (ending : String) :
    Function.Injective (file names ending) := by
  intro s s' h
  unfold file at h
  obtain ⟨hdir, hfile⟩ := List.append_inj' h rfl
  have hdir := List.append_cancel_right hdir
  have hstem : s.2 = s'.2 := by simpa using hfile
  exact Prod.ext hdir hstem

theorem Spot.file_ne {names names' : List String} {ending ending' : String} {c c' : Char}
    (hc : ending.toList.getLast? = some c) (hc' : ending'.toList.getLast? = some c')
    (hne : c ≠ c') (s s' : Spot) : s.file names ending ≠ s'.file names' ending' := by
  intro h
  obtain ⟨-, hfile⟩ := List.append_inj' h rfl
  have hfile : s.2 ++ ending = s'.2 ++ ending' := by simpa using hfile
  have hlast := congrArg (fun text : String => text.toList.getLast?) hfile
  simp [List.getLast?_append, hc, hc'] at hlast
  exact hne hlast

/-- Where a tree keeps its headers. -/
def headerTail : Representation → List String
  | .host => []
  | .embedded => ["inc"]

/-- How the sources of a tree end. -/
def sourceEnding : Representation → String
  | .host => ".cpp"
  | .embedded => ".c"

/-- What the build files of a tree are called. -/
def buildEnding : Representation → String
  | .host => "CMakeLists.txt"
  | .embedded => "messages.cmake"

/-- The spot of a message. The host tree has a directory for each interface. -/
def messageSpot (rep : Representation) (d : Descriptor) : Spot :=
  match rep with
  | .host => ((⟨d.interface⟩ : Path).components, d.name)
  | .embedded => ([], d.name)

def parserSpot : Representation → Spot
  | .host => ([.normal "Parser"], "Parser")
  | .embedded => ([], "Msg_Parser")

/-- The stems of the headers that both trees have. -/
def sharedStems (names : OutputNames) (s : Supplements) : List String :=
  [names.typeEnum, names.addressEnum] ++
    (s.sharedEnums.map fun _ => "msg_enums").toList ++
    (s.commonTypes.map fun _ => "common_types").toList

def sourceSpots (r : Registry) (rep : Representation) : List Spot :=
  (r.messagesFor rep).map (messageSpot rep) ++ [parserSpot rep]

def headerSpots (names : OutputNames) (s : Supplements) (r : Registry) (rep : Representation) :
    List Spot :=
  sourceSpots r rep ++ (sharedStems names s).map ([], ·)

/-- The spots of the build files of a tree. -/
def buildSpots (r : Registry) (rep : Representation) : List Spot :=
  match rep with
  | .host =>
    (r.interfacesFor .host).map (fun i => ((⟨i.name⟩ : Path).components, "")) ++
      [([], ""), ([.normal "Parser"], "")]
  | .embedded => [([], "")]

/-! ## Emitted paths -/

/-- The components of the paths of the files of a tree. -/
def paths (artifacts : List Artifact) (rep : Representation) : List (List Component) :=
  (artifactsFor artifacts rep).map (·.path.components)

theorem paths_append (before after : List Artifact) (rep : Representation) :
    paths (before ++ after) rep = paths before rep ++ paths after rep := by
  simp [paths, artifactsFor]

theorem names?_of_isName {name : String} (h : IsName name) :
    (⟨name⟩ : Path).names? = some [name] :=
  Path.names?_of_text (by simp [Output.Manifest.joinNames]) (by simp) (by simpa using h)

/-- A file in a directory. -/
theorem components_inside {p : Path} {dir file : String} (htext : p.text = dir ++ "/" ++ file)
    (hdir : IsName dir) (hfile : IsName file) : p.components = [.normal dir, .normal file] := by
  have hjoin : p.text = Output.Manifest.joinNames [dir, file] := by
    rw [htext]
    simp [Output.Manifest.joinNames, String.intercalate_cons_cons]
  exact Path.components_of_text hjoin (by simp) (by simpa using ⟨hdir, hfile⟩)

theorem components_treeHeader (rep : Representation) {file : String} (h : IsName file) :
    (treeHeader rep file).components = (headerTail rep).map .normal ++ [.normal file] := by
  cases rep with
  | host => exact Path.components_of_names (names?_of_isName h)
  | embedded =>
    have htext : (treeHeader .embedded file).text = "inc" ++ "/" ++ file := rfl
    exact components_inside htext (by decide) h

section Messages

variable (names : OutputNames) {d : Descriptor} (hname : Naming.isIdentifier d.name = true)
include hname

theorem paths_hostClass : paths (HostClass.artifacts names d) .host =
    [(messageSpot .host d).file [] ".h", (messageSpot .host d).file ["src"] ".cpp"] := by
  have hheader : (⟨s!"{d.name}.h"⟩ : Path).names? = some [d.name ++ ".h"] :=
    names?_of_isName (isName_append hname (by decide))
  have hsource : (⟨s!"{d.name}.cpp"⟩ : Path).names? = some [d.name ++ ".cpp"] :=
    names?_of_isName (isName_append hname (by decide))
  have hsrc : (⟨"src"⟩ : Path).names? = some ["src"] := by decide
  show [(HostClass.headerPath d).components, (HostClass.sourcePath d).components] = _
  rw [HostClass.headerPath, HostClass.sourcePath, Path.components_join hheader,
    Path.components_join hsource, Path.components_join hsrc]
  simp [Spot.file, messageSpot]

theorem paths_recordModule : paths (RecordModule.artifacts names d) .embedded =
    [(messageSpot .embedded d).file ["inc"] ".h", (messageSpot .embedded d).file ["src"] ".c"] := by
  have hheader : s!"inc/{d.name}.h" = "inc" ++ "/" ++ (d.name ++ ".h") := by
    rw [← String.append_assoc]
    rfl
  have hsource : s!"src/{d.name}.c" = "src" ++ "/" ++ (d.name ++ ".c") := by
    rw [← String.append_assoc]
    rfl
  show [(⟨s!"inc/{d.name}.h"⟩ : Path).components, (⟨s!"src/{d.name}.c"⟩ : Path).components] = _
  rw [components_inside hheader (by decide) (isName_append hname (by decide)),
    components_inside hsource (by decide) (isName_append hname (by decide))]
  rfl

end Messages

/-- A header and a source for each message of a tree. -/
theorem paths_messages (names : OutputNames) (rep : Representation) {ds : List Descriptor}
    (h : ∀ d ∈ ds, Naming.isIdentifier d.name = true) :
    paths (ds.flatMap (messageArtifacts names)) rep =
      (ds.filter (·.targets.includes rep)).flatMap fun d =>
        [(messageSpot rep d).file (headerTail rep) ".h",
          (messageSpot rep d).file ["src"] (sourceEnding rep)] := by
  induction ds with
  | nil => rfl
  | cons d ds ih =>
    have hd := h d List.mem_cons_self
    have hmessage : paths (messageArtifacts names d) rep =
        if d.targets.includes rep then
          [(messageSpot rep d).file (headerTail rep) ".h",
            (messageSpot rep d).file ["src"] (sourceEnding rep)]
        else [] := by
      rw [messageArtifacts, paths_append]
      -- Each emitter writes to its own tree, so one of the two adds nothing.
      cases rep with
      | host =>
        have hother : paths (if d.targets.embedded then RecordModule.artifacts names d else [])
            .host = [] := by split <;> rfl
        rw [hother, List.append_nil]
        split
        · rw [if_pos ‹_›]
          exact paths_hostClass names hd
        · rw [if_neg ‹_›]
          rfl
      | embedded =>
        have hother : paths (if d.targets.host then HostClass.artifacts names d else [])
            .embedded = [] := by split <;> rfl
        rw [hother, List.nil_append]
        split
        · rw [if_pos ‹_›]
          exact paths_recordModule names hd
        · rw [if_neg ‹_›]
          rfl
    rw [List.flatMap_cons, paths_append, hmessage, ih fun e he => h e (List.mem_cons_of_mem _ he)]
    by_cases hincludes : d.targets.includes rep = true
    · simp [hincludes]
    · simp [hincludes]

theorem outcome_emitInterfaces (names : OutputNames) (r : Registry) (interfaces : List Interface) :
    (emitInterfaces names r interfaces).outcome =
      .ok (interfaces.flatMap (interfaceArtifacts names r)) := by
  induction interfaces with
  | nil => rfl
  | cons i rest ih =>
    rw [emitInterfaces, Traced.outcome_bind, Traced.outcome_log, Outcome.ok_bind,
      Traced.outcome_bind, ih, Outcome.ok_bind]
    rfl

/-- The interfaces list every message once, so emitting them emits the messages in order. -/
theorem flatMap_interfaceArtifacts (names : OutputNames) {r : Registry} (hr : r.Shaped) :
    r.interfaces.flatMap (interfaceArtifacts names r) =
      r.messages.flatMap (messageArtifacts names) := by
  have hfind : ∀ d ∈ r.messages, r.message? d.name = some d := by
    intro d hd
    obtain ⟨index, hindex⟩ := List.mem_iff_getElem?.1 hd
    exact Registry.message?_name hr.names_nodup (Registry.byId?_eq_some_iff.2 ⟨index, rfl, hindex⟩)
  have hlisted : (r.interfaces.flatMap Interface.messages).filterMap r.message? = r.messages := by
    rw [hr.members_eq, List.filterMap_map]
    calc r.messages.filterMap (r.message? ∘ Descriptor.name)
        = r.messages.filterMap some := List.filterMap_congr hfind
      _ = r.messages := List.filterMap_some
  have hmessages : r.interfaces.flatMap (interfaceArtifacts names r) =
      ((r.interfaces.flatMap Interface.messages).filterMap r.message?).flatMap
        (messageArtifacts names) := by
    rw [List.filterMap_flatMap, List.flatMap_assoc]
    rfl
  rw [hmessages, hlisted]

/-! ## Three kinds of files -/

theorem paths_inBothTrees (file : String) (lines : Representation → Lines) (rep : Representation) :
    paths (inBothTrees file lines) rep = [(treeHeader rep file).components] := by
  cases rep <;> rfl

theorem paths_enumerations {names : OutputNames}
    (htype : Naming.isIdentifier names.typeEnum = true)
    (haddress : Naming.isIdentifier names.addressEnum = true) (r : Registry)
    (rep : Representation) :
    paths (enumerationArtifacts names r) rep =
      [names.typeEnum, names.addressEnum].map fun stem =>
        Spot.file (headerTail rep) ".h" ([], stem) := by
  have htype : IsName s!"{names.typeEnum}.h" := isName_append htype (by decide)
  have haddress : IsName s!"{names.addressEnum}.h" := isName_append haddress (by decide)
  rw [enumerationArtifacts, paths_append, paths_inBothTrees, paths_inBothTrees,
    components_treeHeader rep htype, components_treeHeader rep haddress]
  rfl

theorem paths_supplements (names : OutputNames) (s : Supplements) (rep : Representation) :
    paths (supplementArtifacts names s) rep =
      ((s.sharedEnums.map fun _ => "msg_enums").toList ++
        (s.commonTypes.map fun _ => "common_types").toList).map fun stem =>
          Spot.file (headerTail rep) ".h" ([], stem) := by
  have hshared : (treeHeader rep sharedEnumsHeader).components =
      Spot.file (headerTail rep) ".h" ([], "msg_enums") := by
    cases rep <;> decide +kernel
  have hcommon : (treeHeader rep commonTypesHeader).components =
      Spot.file (headerTail rep) ".h" ([], "common_types") := by
    cases rep <;> decide +kernel
  rw [supplementArtifacts, paths_append, List.map_append]
  congr 1
  · cases s.sharedEnums with
    | none => rfl
    | some contents => exact (paths_inBothTrees ..).trans (congrArg ([·]) hshared)
  · cases s.commonTypes with
    | none => rfl
    | some types => exact (paths_inBothTrees ..).trans (congrArg ([·]) hcommon)

theorem paths_parsers (names : OutputNames) (r : Registry) (host embedded : List DispatchEntry)
    (rep : Representation) :
    paths (parserArtifacts names r host embedded) rep =
      [(parserSpot rep).file (headerTail rep) ".h",
        (parserSpot rep).file ["src"] (sourceEnding rep)] := by
  cases rep with
  | host =>
    show [(⟨"Parser/Parser.h"⟩ : Path).components,
      (⟨"Parser/src/Parser.cpp"⟩ : Path).components] = _
    decide +kernel
  | embedded =>
    show [(⟨"inc/Msg_Parser.h"⟩ : Path).components, (⟨"src/Msg_Parser.c"⟩ : Path).components] = _
    decide +kernel

theorem paths_builds (names : OutputNames) (r : Registry) (rep : Representation) :
    paths (buildArtifacts names r) rep =
      (buildSpots r rep).map (Spot.file [] (buildEnding rep)) := by
  have hfile : (⟨"CMakeLists.txt"⟩ : Path).names? = some ["CMakeLists.txt"] := by decide +kernel
  rw [buildArtifacts, paths_append]
  cases rep with
  | host =>
    rw [buildSpots, List.map_append]
    congr 1
    · simp [paths, artifactsFor, List.filter_map, Path.components_join hfile, Spot.file,
        buildEnding, Function.comp_def]
    · show [(⟨"CMakeLists.txt"⟩ : Path).components,
        (⟨"Parser/CMakeLists.txt"⟩ : Path).components] = _
      decide +kernel
  | embedded =>
    have hinterfaces : paths ((r.interfacesFor .host).map fun i =>
        ⟨.host, Path.join ⟨i.name⟩ ⟨"CMakeLists.txt"⟩, render (interfaceBuild names i)⟩) .embedded =
          [] := by
      simp [paths, artifactsFor]
    rw [hinterfaces, List.nil_append]
    show [(⟨"messages.cmake"⟩ : Path).components] = [Spot.file [] "messages.cmake" ([], "")]
    decide +kernel

theorem flatMap_pair_perm {α β : Type} (f g : α → β) (items : List α) :
    (items.flatMap fun x => [f x, g x]).Perm (items.map f ++ items.map g) := by
  rw [List.map_eq_flatMap (f := g)]
  exact (List.map_append_flatMap_perm items f fun x => [g x]).symm

theorem outcome_generate (names : OutputNames) (s : Supplements) {r : Registry} (hr : r.Shaped) :
    (generate names s r).outcome = .ok (r.messages.flatMap (messageArtifacts names) ++
      enumerationArtifacts names r ++
      parserArtifacts names r (r.wireEntries .host) (r.wireEntries .embedded) ++
      supplementArtifacts names s ++ buildArtifacts names r) := by
  rw [generate, Traced.outcome_bind, outcome_emitInterfaces, flatMap_interfaceArtifacts names hr,
    Outcome.ok_bind]
  simp only [hr.dispatchTable, Traced.outcome_bind]
  rfl

/-- The files of a tree are its headers, its sources and its build files. -/
theorem paths_generate {names : OutputNames} {r : Registry}
    (hmessages : ∀ d ∈ r.messages, Naming.isIdentifier d.name = true)
    (htype : Naming.isIdentifier names.typeEnum = true)
    (haddress : Naming.isIdentifier names.addressEnum = true) (s : Supplements)
    (host embedded : List DispatchEntry) (rep : Representation) :
    (paths (r.messages.flatMap (messageArtifacts names) ++ enumerationArtifacts names r ++
        parserArtifacts names r host embedded ++ supplementArtifacts names s ++
        buildArtifacts names r) rep).Perm
      ((headerSpots names s r rep).map (Spot.file (headerTail rep) ".h") ++
        (sourceSpots r rep).map (Spot.file ["src"] (sourceEnding rep)) ++
        (buildSpots r rep).map (Spot.file [] (buildEnding rep))) := by
  simp only [paths_append]
  rw [paths_messages names rep hmessages, paths_enumerations htype haddress, paths_parsers,
    paths_supplements, paths_builds]
  refine List.perm_iff_count.2 fun path => ?_
  simp only [headerSpots, sourceSpots, sharedStems, Registry.messagesFor,
    (flatMap_pair_perm _ _ _).count_eq, List.map_append, List.map_map, Function.comp_def,
    List.map_cons, List.map_nil, List.count_append, List.count_cons, List.count_nil]
  omega

/-- Files of different kinds never meet, and a source has a header at its side. -/
theorem nodup_iff_spots (names : OutputNames) (s : Supplements) (r : Registry)
    (rep : Representation) :
    ((headerSpots names s r rep).map (Spot.file (headerTail rep) ".h") ++
        (sourceSpots r rep).map (Spot.file ["src"] (sourceEnding rep)) ++
        (buildSpots r rep).map (Spot.file [] (buildEnding rep))).Nodup ↔
      (headerSpots names s r rep).Nodup ∧ (buildSpots r rep).Nodup := by
  obtain ⟨c, c', hc, hc', hne⟩ : ∃ c c', (sourceEnding rep).toList.getLast? = some c ∧
      (buildEnding rep).toList.getLast? = some c' ∧ c ≠ 'h' ∧ c' ≠ 'h' ∧ c ≠ c' := by
    cases rep with
    | host => exact ⟨'p', 't', by decide⟩
    | embedded => exact ⟨'c', 'e', by decide⟩
  have hsource : ∀ u v : Spot, u.file (headerTail rep) ".h" ≠ v.file ["src"] (sourceEnding rep) :=
    Spot.file_ne (by decide) hc (Ne.symm hne.1)
  have hheader : ∀ u v : Spot, u.file (headerTail rep) ".h" ≠ v.file [] (buildEnding rep) :=
    Spot.file_ne (by decide) hc' (Ne.symm hne.2.1)
  have hbuild : ∀ u v : Spot, u.file ["src"] (sourceEnding rep) ≠ v.file [] (buildEnding rep) :=
    Spot.file_ne hc hc' hne.2.2
  -- Files of different kinds never meet, so only spots of one kind are left to compare.
  rw [List.nodup_append', List.nodup_append', List.nodup_map_iff (Spot.file_injective _ _),
    List.nodup_map_iff (Spot.file_injective _ _), List.nodup_map_iff (Spot.file_injective _ _)]
  constructor
  · intro h
    exact ⟨h.1.1, h.2.1⟩
  · intro h
    refine ⟨⟨h.1, h.1.sublist (List.sublist_append_left _ _), ?_⟩, h.2, ?_⟩
    · intro path hpath hpath'
      obtain ⟨u, -, rfl⟩ := List.mem_map.1 hpath
      obtain ⟨v, -, hv⟩ := List.mem_map.1 hpath'
      exact hsource u v hv.symm
    · intro path hpath hpath'
      obtain ⟨v, -, rfl⟩ := List.mem_map.1 hpath'
      rcases List.mem_append.1 hpath with hpath | hpath
      · obtain ⟨u, -, hu⟩ := List.mem_map.1 hpath
        exact hheader u v hu
      · obtain ⟨u, -, hu⟩ := List.mem_map.1 hpath
        exact hbuild u v hu

/-! ## Files that do not meet -/

/-- The names from which the paths of a tree are made do not clash. In the host tree every interface
has a directory, beside that of the parser; the embedded tree has one directory for all headers. -/
def NamesApart (names : OutputNames) (s : Supplements) (r : Registry) : Representation → Prop
  | .host => (sharedStems names s).Nodup ∧
      (("Parser" :: (r.interfacesFor .host).map Interface.name).map fun name =>
        (⟨name⟩ : Path).components).Nodup
  | .embedded =>
      ((r.messagesFor .embedded).map Descriptor.name ++ "Msg_Parser" :: sharedStems names s).Nodup

instance (names : OutputNames) (s : Supplements) (r : Registry) (rep : Representation) :
    Decidable (NamesApart names s r rep) :=
  match rep with
  | .host => inferInstanceAs (Decidable (_ ∧ _))
  | .embedded => inferInstanceAs (Decidable (List.Nodup _))

theorem spots_nodup_embedded (names : OutputNames) (s : Supplements) (r : Registry) :
    (headerSpots names s r .embedded).Nodup ∧ (buildSpots r .embedded).Nodup ↔
      NamesApart names s r .embedded := by
  have hspots : headerSpots names s r .embedded =
      ((r.messagesFor .embedded).map Descriptor.name ++
        "Msg_Parser" :: sharedStems names s).map ([], ·) := by
    simp [headerSpots, sourceSpots, messageSpot, parserSpot]
  rw [hspots, List.nodup_map_iff (Prod.mk_right_injective _)]
  exact and_iff_left (List.nodup_singleton _)

/-- The directory of a host message is that of a host interface. -/
theorem mem_interfacesFor_of_message {r : Registry} (hr : r.Shaped) {d : Descriptor}
    {rep : Representation} (hd : d ∈ r.messagesFor rep) :
    ∃ i ∈ r.interfacesFor rep, d.interface = i.name := by
  obtain ⟨hd, hincludes⟩ := List.mem_filter.1 hd
  obtain ⟨i, hi, -, hname, htargets⟩ := hr.owner d hd
  exact ⟨i, List.mem_filter.2 ⟨hi, by rwa [← htargets]⟩, hname⟩

/-- The build file of the tree is in no directory, and that of an interface in a directory. -/
theorem buildSpots_nodup_iff {r : Registry}
    (hinterfaces : ∀ i ∈ r.interfacesFor .host, i.name ≠ "") :
    (buildSpots r .host).Nodup ↔
      (("Parser" :: (r.interfacesFor .host).map Interface.name).map fun name =>
        (⟨name⟩ : Path).components).Nodup := by
  have hparser : (⟨"Parser"⟩ : Path).components = [.normal "Parser"] := by decide
  have hspots : (buildSpots r .host).Perm
      (([] :: ("Parser" :: (r.interfacesFor .host).map Interface.name).map fun name =>
        (⟨name⟩ : Path).components).map (·, "")) := by
    simp only [buildSpots, List.map_cons, List.map_map, Function.comp_def, hparser]
    exact List.perm_append_comm
  rw [hspots.nodup_iff, List.nodup_map_iff (Prod.mk_left_injective _), List.nodup_cons]
  refine and_iff_right fun hmem => ?_
  obtain ⟨name, hname, hnil⟩ := List.mem_map.1 hmem
  have hne : name ≠ "" := by
    rcases List.mem_cons.1 hname with rfl | hname
    · decide
    · obtain ⟨i, hi, rfl⟩ := List.mem_map.1 hname
      exact hinterfaces i hi
  exact Path.components_ne_nil hne hnil

/-- No message has the spot of the parser, and no two have one spot. -/
theorem sourceSpots_nodup {r : Registry} (hr : r.Shaped)
    (hdirs : (("Parser" :: (r.interfacesFor .host).map Interface.name).map fun name =>
      (⟨name⟩ : Path).components).Nodup) : (sourceSpots r .host).Nodup := by
  have hnames : ((r.messagesFor .host).map Descriptor.name).Nodup :=
    hr.names_nodup.sublist (List.filter_sublist.map _)
  have hmessages : ((r.messagesFor .host).map (messageSpot .host)).Nodup := by
    apply List.Nodup.of_map Prod.snd
    rwa [List.map_map]
  rw [sourceSpots, ← List.concat_eq_append, List.nodup_concat]
  refine ⟨fun hmem => ?_, hmessages⟩
  obtain ⟨d, hd, hspot⟩ := List.mem_map.1 hmem
  obtain ⟨i, hi, hname⟩ := mem_interfacesFor_of_message hr hd
  -- The interface of such a message would have the directory of the parser.
  have hdir : (⟨i.name⟩ : Path).components = (⟨"Parser"⟩ : Path).components := by
    rw [← hname]
    exact congrArg Prod.fst hspot
  rw [List.map_cons, List.nodup_cons] at hdirs
  exact hdirs.1 (hdir ▸ List.mem_map_of_mem (List.mem_map_of_mem hi))

theorem spots_nodup_host {names : OutputNames} {s : Supplements} {r : Registry} (hr : r.Shaped)
    (hinterfaces : ∀ i ∈ r.interfacesFor .host, i.name ≠ "") :
    (headerSpots names s r .host).Nodup ∧ (buildSpots r .host).Nodup ↔
      NamesApart names s r .host := by
  rw [NamesApart, buildSpots_nodup_iff hinterfaces]
  refine and_congr_left fun hdirs => ?_
  rw [headerSpots, List.nodup_append', List.nodup_map_iff (Prod.mk_right_injective _)]
  constructor
  · intro h
    exact h.2.1
  · intro hshared
    refine ⟨sourceSpots_nodup hr hdirs, hshared, fun spot hsource hheader => ?_⟩
    obtain ⟨stem, -, rfl⟩ := List.mem_map.1 hheader
    rcases List.mem_append.1 hsource with hmessage | hparser
    · obtain ⟨d, hd, hspot⟩ := List.mem_map.1 hmessage
      obtain ⟨i, hi, hname⟩ := mem_interfacesFor_of_message hr hd
      have hne : d.interface ≠ "" := hname ▸ hinterfaces i hi
      exact Path.components_ne_nil hne (congrArg Prod.fst hspot)
    · simp [parserSpot] at hparser

/-- Every schema that compiles under a valid configuration can be generated, and no two files of a
tree have the same path exactly if the names that the paths are made of do not clash. -/
theorem paths_nodup_iff {config : Config} {messages : Source} {addresses : Option Source}
    {r : Registry} (hvalid : config.fault? = none)
    (h : (compile config messages addresses).outcome = .ok r) (s : Supplements) :
    ∃ artifacts, (generate config.output s r).outcome = .ok artifacts ∧
      ∀ rep, ((artifactsFor artifacts rep).map (·.path.components)).Nodup ↔
        NamesApart config.output s r rep := by
  have hr := shaped_of_compile h
  have hnamed := named_of_compile h
  obtain ⟨-, htype, haddress⟩ := Config.of_fault? hvalid
  refine ⟨_, outcome_generate config.output s hr, fun rep => ?_⟩
  have hperm := paths_generate hnamed.message htype haddress s (r.wireEntries .host)
    (r.wireEntries .embedded) rep
  show (paths _ rep).Nodup ↔ _
  rw [hperm.nodup_iff, nodup_iff_spots]
  cases rep with
  | host => exact spots_nodup_host hr fun i hi => hnamed.name_ne_empty hvalid hi
  | embedded => exact spots_nodup_embedded config.output s r

/-- Two interfaces and both hand-written headers. -/
theorem paths_nodup_paired : ({} : Config).fault? = none ∧
    ∃ artifacts, (generate {} ⟨some "enum e;", some "typedef int t;", none⟩ .paired).outcome =
        .ok artifacts ∧
      ∀ rep, ((artifactsFor artifacts rep).map (·.path.components)).Nodup := by
  have hvalid : ({} : Config).fault? = none := by decide +kernel
  obtain ⟨artifacts, hartifacts, hnodup⟩ :=
    paths_nodup_iff hvalid compile_paired ⟨some "enum e;", some "typedef int t;", none⟩
  refine ⟨hvalid, artifacts, hartifacts, fun rep => (hnodup rep).2 ?_⟩
  cases rep <;> decide +kernel

/-- An embedded message with the name of the parser compiles, and its files have the paths of the
files of the parser. -/
theorem paths_of_reserved_message :
    ∃ r artifacts,
      (compile {} ⟨"messages.txt", "*GS_FC_A\nMsg_Parser --member uint8_t x\n*\n"⟩ none).outcome =
        .ok r ∧
      (generate {} {} r).outcome = .ok artifacts ∧
      (artifactsFor artifacts .embedded).map (·.path) =
        [⟨"inc/Msg_Parser.h"⟩, ⟨"src/Msg_Parser.c"⟩, ⟨"inc/messageTypes.h"⟩, ⟨"inc/msgAddr.h"⟩,
          ⟨"inc/Msg_Parser.h"⟩, ⟨"src/Msg_Parser.c"⟩, ⟨"messages.cmake"⟩] ∧
      ¬((artifactsFor artifacts .embedded).map (·.path.components)).Nodup := by
  have hcompile : (compile {}
      ⟨"messages.txt", "*GS_FC_A\nMsg_Parser --member uint8_t x\n*\n"⟩ none).outcome = .ok
        { interfaces := [⟨"GS_FC_A", ⟨true, true⟩, ⟨"messages.txt", 1⟩, ["Msg_Parser"]⟩]
          messages := [⟨"Msg_Parser", "GS_FC_A", ⟨true, true⟩, [⟨"x", "uint8_t", .scalar .u8⟩], [],
            false, ⟨"messages.txt", 2⟩⟩] } :=
    Outcome.of_toOption (by decide +kernel)
  refine ⟨_, _, hcompile, outcome_generate {} {} (shaped_of_compile hcompile), ?_, ?_⟩
  · decide +kernel
  · decide +kernel

end Emit

end WireSchema
