import WireSchema.Proofs.Emit.BuildFiles
import WireSchema.Proofs.Emit.Trees
import WireSchema.Proofs.Schema.Outline

/-!
# Build files list what is emitted

Messages are emitted by their own targets and into the directory of the interface that they name.
Build files go by the targets of interfaces and by their member lists.

**Theorem (`sources_listed_once`).** For every schema that compiles, the build file of a host
interface lists the sources of its messages in the order of declaration, and all of them are
emitted. Every emitted host source but that of the parser is listed by exactly one interface. The
host interfaces are added to the tree and linked to the parser in order. The list of the embedded
tree has a block for each interface with the sources of its messages, which are emitted, and every
embedded message has its source in exactly one block.

Both sides agree because the members of an interface in a compiled registry are the messages that
name it (`Shaped.members_of_interface`), with its targets. A source is not listed twice because the
names of messages differ, even where two interfaces share a directory.
-/

namespace WireSchema

open Emit

/-- The messages of an interface, in the order of declaration. -/
def Registry.messagesOf (r : Registry) (i : Interface) : List Descriptor :=
  r.messages.filter (·.interface == i.name)

def Artifact.LiesAt (a : Artifact) (rep : Representation) (path : Path) : Prop :=
  a.representation = rep ∧ a.path.same path = true

/-! ## Members and messages -/

namespace Registry

variable {r : Registry} {i : Interface} {d : Descriptor} {rep : Representation}

theorem mem_messagesOf : d ∈ r.messagesOf i ↔ d ∈ r.messages ∧ d.interface = i.name := by
  simp [messagesOf]

/-- The interfaces of a tree and its messages belong together. -/
theorem Shaped.mem_interfacesFor_iff (hr : r.Shaped) (hi : i ∈ r.interfaces)
    (hd : d ∈ r.messagesOf i) : i ∈ r.interfacesFor rep ↔ d ∈ r.messagesFor rep := by
  obtain ⟨hmem, hname⟩ := mem_messagesOf.1 hd
  obtain ⟨j, hj, -, hj', htargets⟩ := hr.owner d hmem
  have hsame : j = i := List.inj_on_of_nodup_map hr.interfaces_nodup hj hi (hj'.symm.trans hname)
  rw [hsame] at htargets
  simp [interfacesFor, messagesFor, hi, hmem, htargets]

/-- A message is in one interface only. -/
theorem Shaped.interface_unique (hr : r.Shaped) {j : Interface} (hi : i ∈ r.interfaces)
    (hj : j ∈ r.interfaces) (hd : d ∈ r.messagesOf i) (hd' : d ∈ r.messagesOf j) : i = j := by
  have hname : i.name = j.name := (mem_messagesOf.1 hd).2.symm.trans (mem_messagesOf.1 hd').2
  exact List.inj_on_of_nodup_map hr.interfaces_nodup hi hj hname

/-- Messages with one name are one message. -/
theorem Shaped.eq_of_name (hr : r.Shaped) {e : Descriptor} (hd : d ∈ r.messages)
    (he : e ∈ r.messages) (hname : d.name = e.name) : d = e :=
  List.inj_on_of_nodup_map hr.names_nodup hd he hname

theorem Shaped.members_eq_map (hr : r.Shaped) (hi : i ∈ r.interfacesFor rep)
    (f : String → String) :
    i.messages.map f = (r.messagesOf i).map fun d => f d.name := by
  rw [hr.members_of_interface (List.mem_of_mem_filter hi), List.map_map]
  rfl

end Registry

/-! ## Sources of the host tree -/

namespace Emit

variable {d : Descriptor}

theorem components_hostSource (dir : String) {name : String}
    (h : Naming.isIdentifier name = true) : (Path.join ⟨dir⟩ ⟨hostSource name⟩).components =
      (⟨dir⟩ : Path).components ++ [.normal "src", .normal (name ++ ".cpp")] := by
  have htext : (⟨hostSource name⟩ : Path).text =
      Output.Manifest.joinNames ["src", name ++ ".cpp"] := by
    rw [← String.toList_inj]
    simp [hostSource, toString, Output.Manifest.joinNames, String.intercalate_cons_cons]
  have hnames : (⟨hostSource name⟩ : Path).names? = some ["src", name ++ ".cpp"] := by
    apply Path.names?_of_text htext (by simp)
    simp only [List.forall_mem_cons, List.not_mem_nil, false_implies, implies_true, and_true]
    exact ⟨by decide, isName_append h (by decide)⟩
  rw [Path.components_join hnames]
  rfl

/-- The source of a host message is where the build file of its interface says. -/
theorem same_sourcePath (h : Naming.isIdentifier d.name = true) :
    (HostClass.sourcePath d).same (Path.join ⟨d.interface⟩ ⟨hostSource d.name⟩) = true := by
  have hfile : (⟨s!"{d.name}.cpp"⟩ : Path).names? = some [d.name ++ ".cpp"] :=
    names?_of_isName (isName_append h (by decide))
  have hsrc : (⟨"src"⟩ : Path).names? = some ["src"] := by decide
  rw [Path.same, beq_iff_eq, components_hostSource _ h, HostClass.sourcePath,
    Path.components_join hfile, Path.components_join hsrc]
  simp

/-- Whatever the directory is, the file tells the message. -/
theorem name_of_same {e : Descriptor} {dir : String} (hd : Naming.isIdentifier d.name = true)
    (he : Naming.isIdentifier e.name = true)
    (h : (HostClass.sourcePath d).same (Path.join ⟨dir⟩ ⟨hostSource e.name⟩) = true) :
    d.name = e.name := by
  have hsame := same_sourcePath hd
  rw [Path.same, beq_iff_eq] at h hsame
  rw [hsame, components_hostSource _ hd, components_hostSource _ he] at h
  obtain ⟨-, hfile⟩ := List.append_inj' h rfl
  simpa using hfile

theorem source_inj {a b : String} : s!"src/{a}.c" = s!"src/{b}.c" ↔ a = b := by
  rw [← String.toList_inj, ← String.toList_inj]
  simp [toString]

theorem last?_text_join {p q : Path} {c : Char} (h : last? q.text = some c) :
    last? (p.join q).text = some c := by
  obtain ⟨front, hfront⟩ := List.getLast?_eq_some_iff.1 h
  obtain ⟨more, hmore⟩ : [c] <:+ (p.join q).text.toList := Path.suffix_join ⟨front, hfront.symm⟩
  exact List.getLast?_eq_some_iff.2 ⟨more, hmore.symm⟩

theorem last?_supplement {names : OutputNames} {s : Supplements} {a : Artifact}
    (h : a ∈ supplementArtifacts names s) : last? a.path.text = some 'h' := by
  have hheader : ∀ {file : String} {lines : Representation → Lines},
      last? file = some 'h' → a ∈ inBothTrees file lines → last? a.path.text = some 'h' := by
    intro file lines hfile ha
    rcases List.mem_cons.1 ha with rfl | ha
    · exact hfile
    · rw [List.mem_singleton.1 ha]
      exact last?_append _ hfile
  rcases List.mem_append.1 h with h | h
  · split at h
    · exact hheader (last?_ofList rfl) h
    · cases h
  · split at h
    · exact hheader (last?_ofList rfl) h
    · cases h

/-- Only the messages and the parser have sources in the host tree. -/
theorem source_of_mem_hostFiles {names : OutputNames} {s : Supplements} {r : Registry}
    {a : Artifact} (ha : a ∈ treeFiles names s r .host)
    (hcpp : ".cpp".toList <:+ a.path.text.toList) :
    a = parserSource names r .host ∨ ∃ d ∈ r.messagesFor .host, a.path = HostClass.sourcePath d := by
  have hlast : last? a.path.text = some 'p' := by
    obtain ⟨front, hfront⟩ := hcpp
    rw [last?, ← hfront, List.getLast?_append]
    rfl
  have hnot : ∀ {c : Char}, last? a.path.text = some c → c ≠ 'p' → False := by
    intro c hc hne
    rw [hlast] at hc
    exact hne (Option.some.inj hc).symm
  -- The last letter of a path tells sources from headers and build files.
  simp only [treeFiles, List.mem_append] at ha
  rcases ha with (((ha | ha) | ha) | ha) | ha
  · obtain ⟨d, hd, ha⟩ := List.mem_flatMap.1 ha
    rcases List.mem_cons.1 ha with rfl | ha
    · have hheader : last? s!"{d.name}.h" = some 'h' := last?_append _ (last?_ofList rfl)
      exact (hnot (last?_text_join hheader) (by decide)).elim
    · rw [List.mem_singleton.1 ha]
      exact .inr ⟨d, hd, rfl⟩
  · have hheader : last? a.path.text = some 'h' := by
      rcases List.mem_cons.1 ha with rfl | ha
      · exact last?_append _ (last?_ofList rfl)
      · rw [List.mem_singleton.1 ha]
        exact last?_append _ (last?_ofList rfl)
    exact (hnot hheader (by decide)).elim
  · rcases List.mem_cons.1 ha with rfl | ha
    · exact (hnot (last?_ofList rfl) (by decide)).elim
    · exact .inl (List.mem_singleton.1 ha)
  · exact (hnot (last?_supplement (mem_artifactsFor.1 ha).1) (by decide)).elim
  · have hbuild : last? a.path.text = some 't' := by
      rcases List.mem_append.1 ha with ha | ha
      · obtain ⟨i, -, rfl⟩ := List.mem_map.1 ha
        exact last?_text_join (last?_ofList rfl)
      · rcases List.mem_cons.1 ha with rfl | ha
        · exact last?_ofList rfl
        · rw [List.mem_singleton.1 ha]
          exact last?_ofList rfl
    exact (hnot hbuild (by decide)).elim

end Emit

theorem Emit.mem_treeFiles_of_message {names : OutputNames} {s : Supplements} {r : Registry}
    {rep : Representation} {d : Descriptor} {a : Artifact} (hd : d ∈ r.messagesFor rep)
    (ha : a ∈ messageFiles names rep d) : a ∈ treeFiles names s r rep := by
  simp only [treeFiles, List.mem_append]
  exact .inl (.inl (.inl (.inl (List.mem_flatMap.2 ⟨d, hd, ha⟩))))

/-! ## Lists and files -/

/-- The build files of the host tree list its sources. Each file is the one that is made for its
interface, message or tree, and not just any that has its path. -/
structure HostLists (names : OutputNames) (r : Registry) (artifacts : List Artifact) : Prop where
  /-- The build file of an interface lists the sources of its messages in order. -/
  sources : ∀ i ∈ r.interfacesFor .host, interfaceFile names i ∈ artifacts ∧
    (interfaceFile names i).LiesAt .host (Path.join ⟨i.name⟩ ⟨"CMakeLists.txt"⟩) ∧
    buildLists (linesOf (interfaceFile names i).contents) =
      [("SOURCES", (r.messagesOf i).map fun d => s!"src/{d.name}.cpp")]
  /-- What is listed is emitted. -/
  emitted : ∀ i ∈ r.interfacesFor .host, ∀ d ∈ r.messagesOf i,
    ⟨.host, HostClass.sourcePath d, render (HostClass.source names d)⟩ ∈ artifacts ∧
      (HostClass.sourcePath d).same (Path.join ⟨i.name⟩ ⟨s!"src/{d.name}.cpp"⟩) = true
  /-- What is emitted is listed in one build file. -/
  listed : ∀ a ∈ artifacts, a.representation = .host → ".cpp".toList <:+ a.path.text.toList →
    a ≠ parserSource names r .host → ∃! i, i ∈ r.interfacesFor .host ∧
      ∃ list ∈ buildLists (linesOf (interfaceFile names i).contents), ∃ source ∈ list.2,
        a.path.same (Path.join ⟨i.name⟩ ⟨source⟩) = true
  /-- The build file of the tree adds the interfaces in order, and the parser. -/
  added : ⟨.host, ⟨"CMakeLists.txt"⟩, render (hostBuild names r)⟩ ∈ artifacts ∧
    subdirectories (linesOf (render (hostBuild names r))) =
      (r.interfacesFor .host).map Interface.name ++ ["Parser"]
  /-- The build file of the parser links the interfaces in order. -/
  linked : ⟨.host, ⟨"Parser/CMakeLists.txt"⟩, render (hostParserBuild names r)⟩ ∈ artifacts ∧
    linkedLibraries (linesOf (render (hostParserBuild names r))) =
      [("Parser", (r.interfacesFor .host).map Interface.name)]

/-- The lists of the embedded tree have its sources. -/
structure EmbeddedLists (names : OutputNames) (r : Registry) (artifacts : List Artifact)
    (lists : List (String × List String)) : Prop where
  /-- A block for each interface lists the sources of its messages in order, before the list of all
  sources. -/
  blocks : ∃ all, lists = (r.interfacesFor .embedded).map (fun i =>
    (sourcesVariable i, (r.messagesOf i).map fun d => s!"src/{d.name}.c")) ++ [("MSG_SOURCES", all)]
  /-- What is listed is emitted. -/
  emitted : ∀ i ∈ r.interfacesFor .embedded, ∀ d ∈ r.messagesOf i,
    ⟨.embedded, ⟨s!"src/{d.name}.c"⟩, render (RecordModule.source names d)⟩ ∈ artifacts
  /-- Every message is in one block. -/
  listed : ∀ d ∈ r.messagesFor .embedded, ∃! k : Nat, ∃ block, lists[k]? = some block ∧
    block.1 ≠ "MSG_SOURCES" ∧ s!"src/{d.name}.c" ∈ block.2

section Compile

variable {config : Config} {messages : Source} {addresses : Option Source} {r : Registry}
  (h : (compile config messages addresses).outcome = .ok r)
include h

theorem oneLine_interface {i : Interface} (hi : i ∈ r.interfaces) : OneLine i.name := by
  constructor
  intro hmem
  exact absurd (isSpace_of_mem_interface h hi '\n' hmem) (by decide)

theorem first?_interface {i : Interface} (hi : i ∈ r.interfaces) :
    (first? i.name).any isBlank = false := by
  rw [Bool.eq_false_iff]
  intro hany
  cases hc : first? i.name with
  | none =>
    rw [hc] at hany
    cases hany
  | some c =>
    have hspace := isSpace_of_mem_interface h hi c (List.mem_of_mem_head? hc)
    rw [hc, Option.any_some, isBlank, Bool.or_eq_true, beq_iff_eq, beq_iff_eq] at hany
    rcases hany with rfl | rfl
    · exact absurd hspace (by decide)
    · exact absurd hspace (by decide)

theorem oneLine_member {i : Interface} (hi : i ∈ r.interfaces) :
    ∀ name ∈ i.messages, OneLine name := by
  intro name hname
  rw [(shaped_of_compile h).members_of_interface hi] at hname
  obtain ⟨d, hd, rfl⟩ := List.mem_map.1 hname
  have hidentifier := (named_of_compile h).message d (List.mem_of_mem_filter hd)
  exact oneLine_of_isWord (Naming.isWord_of_isIdentifier hidentifier)

theorem linesOf_embeddedBuild (names : OutputNames) :
    linesOf (render (embeddedBuild names r)) = embeddedBuild names r :=
  linesOf_render (oneLine_embeddedBuild names fun _ hi => oneLine_member h hi)

/-- What is read from the build file of a host interface. -/
theorem buildLists_interfaceFile (names : OutputNames) {i : Interface}
    (hi : i ∈ r.interfacesFor .host) : buildLists (linesOf (interfaceFile names i).contents) =
      [("SOURCES", (r.messagesOf i).map fun d => hostSource d.name)] := by
  have hi' := List.mem_of_mem_filter hi
  have hlines : linesOf (interfaceFile names i).contents = interfaceBuild names i :=
    linesOf_render (oneLine_interfaceBuild names (oneLine_interface h hi') (oneLine_member h hi'))
  rw [hlines, buildLists_interfaceBuild, (shaped_of_compile h).members_eq_map hi]

/-- Only the interface of a message lists its source. -/
theorem existsUnique_interface (names : OutputNames) {d : Descriptor}
    (hd : d ∈ r.messagesFor .host) : ∃! i, i ∈ r.interfacesFor .host ∧
      ∃ list ∈ buildLists (linesOf (interfaceFile names i).contents), ∃ source ∈ list.2,
        (HostClass.sourcePath d).same (Path.join ⟨i.name⟩ ⟨source⟩) = true := by
  have hr := shaped_of_compile h
  have hnamed := named_of_compile h
  have hd' := List.mem_of_mem_filter hd
  obtain ⟨i, hi, hname⟩ := mem_interfacesFor_of_message hr hd
  have hdi : d ∈ r.messagesOf i := Registry.mem_messagesOf.2 ⟨hd', hname⟩
  refine ⟨i, ⟨hi, ("SOURCES", (r.messagesOf i).map fun d => hostSource d.name), ?_,
    hostSource d.name, List.mem_map_of_mem hdi, ?_⟩, ?_⟩
  · rw [buildLists_interfaceFile h names hi]
    exact List.mem_cons_self
  · rw [← hname]
    exact same_sourcePath (hnamed.message d hd')
  · rintro j ⟨hj, list, hlist, source, hsource, hsame⟩
    rw [buildLists_interfaceFile h names hj, List.mem_singleton] at hlist
    rw [hlist] at hsource
    obtain ⟨e, he, rfl⟩ := List.mem_map.1 hsource
    have he' := (Registry.mem_messagesOf.1 he).1
    have hde : d = e := hr.eq_of_name hd' he'
      (name_of_same (hnamed.message d hd') (hnamed.message e he') hsame)
    rw [← hde] at he
    exact hr.interface_unique (List.mem_of_mem_filter hj) (List.mem_of_mem_filter hi) he hdi

section Files

variable (names : OutputNames) (s : Supplements) {artifacts : List Artifact}
  (hfiles : ∀ rep, artifactsFor artifacts rep = treeFiles names s r rep)
include hfiles

omit h in
theorem mem_of_mem_treeFiles {rep : Representation} {a : Artifact}
    (ha : a ∈ treeFiles names s r rep) : a ∈ artifacts := by
  rw [← hfiles] at ha
  exact (mem_artifactsFor.1 ha).1

theorem hostLists_of_compile : HostLists names r artifacts where
  sources := by
    intro i hi
    have hfile : interfaceFile names i ∈ buildFiles names r .host :=
      List.mem_append_left _ (List.mem_map_of_mem hi)
    exact ⟨mem_of_mem_treeFiles names s hfiles (List.mem_append_right _ hfile),
      ⟨rfl, beq_self_eq_true _⟩, buildLists_interfaceFile h names hi⟩
  emitted := by
    intro i hi d hd
    obtain ⟨hd', hname⟩ := Registry.mem_messagesOf.1 hd
    have hfor : d ∈ r.messagesFor .host :=
      ((shaped_of_compile h).mem_interfacesFor_iff (List.mem_of_mem_filter hi) hd).1 hi
    have hfile : ⟨.host, HostClass.sourcePath d, render (HostClass.source names d)⟩ ∈
        messageFiles names .host d := List.mem_cons_of_mem _ List.mem_cons_self
    refine ⟨mem_of_mem_treeFiles names s hfiles (mem_treeFiles_of_message hfor hfile), ?_⟩
    rw [← hname]
    exact same_sourcePath ((named_of_compile h).message d hd')
  listed := by
    intro a ha hrep hcpp hne
    have hfile : a ∈ treeFiles names s r .host := by
      rw [← hfiles]
      exact mem_artifactsFor.2 ⟨ha, hrep⟩
    -- A source other than the parser's is that of a message, which has one interface.
    obtain ⟨d, hd, hpath⟩ := (source_of_mem_hostFiles hfile hcpp).resolve_left hne
    rw [hpath]
    exact existsUnique_interface h names hd
  added := by
    have hfile : ⟨.host, ⟨"CMakeLists.txt"⟩, render (hostBuild names r)⟩ ∈
        buildFiles names r .host := List.mem_append_right _ List.mem_cons_self
    refine ⟨mem_of_mem_treeFiles names s hfiles (List.mem_append_right _ hfile), ?_⟩
    rw [linesOf_render (oneLine_hostBuild names fun i hi => oneLine_interface h hi),
      subdirectories_hostBuild]
  linked := by
    have hfile : ⟨.host, ⟨"Parser/CMakeLists.txt"⟩, render (hostParserBuild names r)⟩ ∈
        buildFiles names r .host :=
      List.mem_append_right _ (List.mem_cons_of_mem _ List.mem_cons_self)
    refine ⟨mem_of_mem_treeFiles names s hfiles (List.mem_append_right _ hfile), ?_⟩
    rw [linesOf_render (oneLine_hostParserBuild names fun i hi => oneLine_interface h hi)]
    exact linkedLibraries_hostParserBuild names fun i hi =>
      first?_interface h (List.mem_of_mem_filter hi)

omit h hfiles in
/-- The variable of an interface is not that of all sources. -/
theorem sourcesVariable_ne (i : Interface) : sourcesVariable i ≠ "MSG_SOURCES" := by
  intro heq
  have hlength := congrArg String.length heq
  have hlong : (sourcesVariable i).length = 4 + (Naming.foldUpper i.name).length + 8 := by
    rw [sourcesVariable, String.length_append, String.length_append]
    rfl
  rw [hlong] at hlength
  have hshort : "MSG_SOURCES".length = 11 := by decide
  omega

omit hfiles in
/-- Only the block of the interface of a message lists its source. -/
theorem existsUnique_block {all : List String} {d : Descriptor} (hd : d ∈ r.messagesFor .embedded) :
    ∃! k : Nat, ∃ block, ((r.interfacesFor .embedded).map (fun i =>
      (sourcesVariable i, (r.messagesOf i).map fun d => s!"src/{d.name}.c")) ++
        [("MSG_SOURCES", all)])[k]? = some block ∧
      block.1 ≠ "MSG_SOURCES" ∧ s!"src/{d.name}.c" ∈ block.2 := by
  have hr := shaped_of_compile h
  have hd' := List.mem_of_mem_filter hd
  obtain ⟨i, hi, hname⟩ := mem_interfacesFor_of_message hr hd
  have hdi : d ∈ r.messagesOf i := Registry.mem_messagesOf.2 ⟨hd', hname⟩
  obtain ⟨k, hk, hget⟩ := List.mem_iff_getElem.1 hi
  refine ⟨k, ⟨(sourcesVariable i, (r.messagesOf i).map fun d => s!"src/{d.name}.c"), ?_,
    sourcesVariable_ne i, List.mem_map_of_mem hdi⟩, ?_⟩
  · rw [List.getElem?_append_left (by rwa [List.length_map]), List.getElem?_map,
      List.getElem?_eq_getElem hk, hget]
    rfl
  · rintro l ⟨block, hblock, hne, hsource⟩
    by_cases hl : l < (r.interfacesFor .embedded).length
    · rw [List.getElem?_append_left (by rwa [List.length_map]), List.getElem?_map,
        List.getElem?_eq_getElem hl, Option.map_some, Option.some.injEq] at hblock
      rw [← hblock] at hsource
      obtain ⟨e, he, hfile⟩ := List.mem_map.1 hsource
      -- A path of a source gives the message, and the message gives its only interface.
      have hde : d = e :=
        hr.eq_of_name hd' (Registry.mem_messagesOf.1 he).1 (source_inj.1 hfile).symm
      rw [← hde] at he
      have hj := List.getElem_mem hl
      have hsame := hr.interface_unique (List.mem_of_mem_filter hj) (List.mem_of_mem_filter hi) he hdi
      have hnodup : (r.interfacesFor .embedded).Nodup :=
        (List.Nodup.of_map _ hr.interfaces_nodup).filter _
      exact (hnodup.getElem_inj_iff).1 (hsame.trans hget.symm)
    · -- What is behind the blocks is the list of all sources.
      rw [List.getElem?_append_right (by rw [List.length_map]; omega)] at hblock
      have hlast := List.mem_of_getElem? hblock
      rw [List.mem_singleton.1 hlast] at hne
      exact absurd rfl hne

theorem embeddedLists_of_compile : EmbeddedLists names r artifacts
    (buildLists (linesOf (render (embeddedBuild names r)))) := by
  have hr := shaped_of_compile h
  obtain ⟨all, hall⟩ : ∃ all, buildLists (embeddedBuild names r) =
      (r.interfacesFor .embedded).map (fun i =>
        (sourcesVariable i, i.messages.map fun name => s!"src/{name}.c")) ++
      [("MSG_SOURCES", all)] := ⟨_, buildLists_embeddedBuild names r⟩
  have hblocks : buildLists (embeddedBuild names r) = (r.interfacesFor .embedded).map (fun i =>
      (sourcesVariable i, (r.messagesOf i).map fun d => s!"src/{d.name}.c")) ++
        [("MSG_SOURCES", all)] := by
    rw [hall, List.map_congr_left]
    intro i hi
    rw [hr.members_eq_map hi]
  rw [linesOf_embeddedBuild h, hblocks]
  refine ⟨⟨all, rfl⟩, ?_, fun d hd => existsUnique_block h hd⟩
  intro i hi d hd
  have hfor := (hr.mem_interfacesFor_iff (List.mem_of_mem_filter hi) hd).1 hi
  have hfile : ⟨.embedded, ⟨s!"src/{d.name}.c"⟩, render (RecordModule.source names d)⟩ ∈
      messageFiles names .embedded d := List.mem_cons_of_mem _ List.mem_cons_self
  exact mem_of_mem_treeFiles names s hfiles (mem_treeFiles_of_message hfor hfile)

end Files

/-- Build files list exactly the sources that are emitted. -/
theorem sources_listed_once (names : OutputNames) (s : Supplements) :
    ∃ artifacts, (generate names s r).outcome = .ok artifacts ∧ HostLists names r artifacts ∧
      ⟨.embedded, ⟨"messages.cmake"⟩, render (embeddedBuild names r)⟩ ∈ artifacts ∧
      EmbeddedLists names r artifacts (buildLists (linesOf (render (embeddedBuild names r)))) := by
  obtain ⟨artifacts, hgenerate, hfiles⟩ := artifactsFor_generate names s (shaped_of_compile h)
  have hfile : ⟨.embedded, ⟨"messages.cmake"⟩, render (embeddedBuild names r)⟩ ∈
      buildFiles names r .embedded := List.mem_cons_self
  exact ⟨artifacts, hgenerate, hostLists_of_compile h names s hfiles,
    mem_of_mem_treeFiles names s hfiles (List.mem_append_right _ hfile),
    embeddedLists_of_compile h names s hfiles⟩

end Compile

theorem sources_listed_once_paired :
    (compile {} .paired none).outcome = .ok .paired ∧
      ∃ artifacts, (generate {} {} .paired).outcome = .ok artifacts ∧
        HostLists {} .paired artifacts ∧
        ⟨.embedded, ⟨"messages.cmake"⟩, render (embeddedBuild {} .paired)⟩ ∈ artifacts ∧
        EmbeddedLists {} .paired artifacts
          (buildLists (linesOf (render (embeddedBuild {} .paired)))) :=
  ⟨compile_paired, sources_listed_once compile_paired {} {}⟩

end WireSchema
