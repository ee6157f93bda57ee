import WireSchema.Proofs.Emit.Reading
import WireSchema.Proofs.Emit.Trees

/-!
# Include guards

Every header of a tree asks for a macro in its first directive and defines it in the next one, so
that it counts once. The macro is the stem of its file in upper case, in the host tree behind the
namespace, whatever the directory of the file is (`Headed`).

**Theorem (`guards_differ_iff`).** Every header of a tree has a guard, and headers at different
paths have different guards exactly if their stems differ in more than the case of letters.

Folding to upper case forgets the case of letters and nothing else of an identifier
(`Naming.foldUpper_eq_iff`).
-/

namespace WireSchema

theorem Text.splitWhere_ne_nil (p : Char → Bool) (cs : List Char) : splitWhere p cs ≠ [] := by
  cases cs with
  | nil => exact List.cons_ne_nil _ _
  | cons c cs =>
    rw [splitWhere]
    split
    · exact List.cons_ne_nil _ _
    · cases splitWhere p cs <;> exact List.cons_ne_nil _ _

namespace Emit

theorem treeGuard_eq_iff (names : OutputNames) (rep : Representation) {a b : String}
    (ha : Naming.IsWord a) (hb : Naming.IsWord b) :
    treeGuard names rep a = treeGuard names rep b ↔ a.toLower = b.toLower := by
  rw [← Naming.foldUpper_eq_iff ha hb]
  cases rep with
  | host =>
    have hguard : ∀ stem, treeGuard names .host stem =
        Naming.foldUpper (names.spaceName ++ "_") ++ Naming.foldUpper stem ++ "_H_" := by
      intro stem
      rw [← Naming.foldUpper_append]
      rfl
    rw [hguard, hguard, String.append_left_inj, String.append_right_inj]
  | embedded =>
    have hguard : ∀ stem, treeGuard names .embedded stem = Naming.foldUpper stem ++ "_H_" :=
      fun _ => rfl
    rw [hguard, hguard, String.append_left_inj]

theorem isWord_treeGuard (names : OutputNames) (rep : Representation) (stem : String) :
    Naming.IsWord (treeGuard names rep stem) := by
  cases rep <;> exact Naming.isWord_headerGuard _

/-! ## Reading a guard -/

/-- The macro that guards a header: the first one that it asks for, if the next line defines it. -/
def includeGuard? : Lines → Option String
  | [] => none
  | line :: rest =>
    match between? "#ifndef " "" line with
    | some name => if rest.head? = some ("#define " ++ name) then some name else none
    | none => includeGuard? rest

theorem includeGuard?_append {front : Lines} (h : ∀ line ∈ front, between? "#ifndef " "" line = none)
    (rest : Lines) : includeGuard? (front ++ rest) = includeGuard? rest := by
  induction front with
  | nil => rfl
  | cons line front ih =>
    obtain ⟨hline, hfront⟩ := List.forall_mem_cons.1 h
    rw [List.cons_append, includeGuard?, hline]
    exact ih hfront

theorem includeGuard?_directives (name : String) (rest : Lines) :
    includeGuard? (("#ifndef " ++ name) :: ("#define " ++ name) :: rest) = some name := by
  have hline : between? "#ifndef " "" ("#ifndef " ++ name) = some name := by
    rw [between?_eq_some_iff, String.append_empty]
  rw [includeGuard?, hline]
  exact if_pos rfl

theorem linesOf_render_append {front : Lines} (h : ∀ line ∈ front, OneLine line) (back : Lines) :
    linesOf (render (front ++ back)) = front ++ linesOf (render back) := by
  have hne : Text.split '\n' (render back) ≠ [] :=
    fun hnil => Text.splitWhere_ne_nil _ _ (List.map_eq_nil_iff.1 hnil)
  rw [linesOf, split_render_append h, List.dropLast_append_of_ne_nil hne, linesOf]

/-- The guard is read whatever the header has behind it. -/
theorem includeGuard?_render (names : OutputNames) {file name : String} (hfile : OneLine file)
    (hname : Naming.IsWord name) (body : Lines) :
    includeGuard? (linesOf (render (preamble names file .block ++ guarded name body))) =
      some name := by
  have hname := oneLine_of_isWord hname
  have hshape : preamble names file .block ++ guarded name body =
      (preamble names file .block ++ ["#ifndef " ++ name, "#define " ++ name]) ++
        ("" :: body ++ [s!"#endif /* {name} */"]) := by
    rw [guarded, List.append_assoc, List.append_assoc]
    rfl
  have hlines : ∀ line ∈ preamble names file .block ++ ["#ifndef " ++ name, "#define " ++ name],
      OneLine line := by
    simp only [List.forall_mem_append, List.forall_mem_cons]
    exact ⟨oneLine_preamble names hfile _, (oneLine_ofList _ (by decide)).append hname,
      (oneLine_ofList _ (by decide)).append hname, List.forall_mem_nil _⟩
  have hfront : ∀ line ∈ preamble names file .block, between? "#ifndef " "" line = none := by
    intro line hline
    rcases first?_of_mem_block hline with hfirst | hfirst | hfirst
    · exact between?_eq_none (first?_ofList _ _) hfirst (by decide) _
    · exact between?_eq_none (first?_ofList _ _) hfirst (by decide) _
    · exact between?_eq_none (first?_ofList _ _) hfirst (by decide) _
  rw [hshape, linesOf_render_append hlines, List.append_assoc, includeGuard?_append hfront]
  exact includeGuard?_directives name _

/-! ## Headers of a tree -/

/-- A file is the header at a spot. Its guard says nothing of the directory. -/
structure Heads (names : OutputNames) (rep : Representation) (a : Artifact) (u : Spot) : Prop where
  ending : ".h".toList <:+ a.path.text.toList
  components : a.path.components = u.file (headerTail rep) ".h"
  guard : includeGuard? (linesOf a.contents) = some (treeGuard names rep u.2)

/-- The headers among some files are those of the spots. -/
structure Headed (names : OutputNames) (rep : Representation) (files : List Artifact)
    (spots : List Spot) : Prop where
  spot : ∀ a ∈ files, ".h".toList <:+ a.path.text.toList → ∃ u ∈ spots, Heads names rep a u
  file : ∀ u ∈ spots, ∃ a ∈ files, Heads names rep a u

namespace Headed

variable {names : OutputNames} {rep : Representation} {files more : List Artifact}
  {spots others : List Spot} {a : Artifact} {u : Spot}

theorem nil : Headed names rep [] [] := ⟨List.forall_mem_nil _, List.forall_mem_nil _⟩

theorem append (h : Headed names rep files spots) (hmore : Headed names rep more others) :
    Headed names rep (files ++ more) (spots ++ others) where
  spot := List.forall_mem_append.2
    ⟨fun a ha hending => (h.spot a ha hending).imp fun _ hu => ⟨List.mem_append_left _ hu.1, hu.2⟩,
      fun a ha hending =>
        (hmore.spot a ha hending).imp fun _ hu => ⟨List.mem_append_right _ hu.1, hu.2⟩⟩
  file := List.forall_mem_append.2
    ⟨fun u hu => (h.file u hu).imp fun _ ha => ⟨List.mem_append_left _ ha.1, ha.2⟩,
      fun u hu => (hmore.file u hu).imp fun _ ha => ⟨List.mem_append_right _ ha.1, ha.2⟩⟩

theorem header (h : Heads names rep a u) : Headed names rep [a] [u] where
  spot := List.forall_mem_singleton.2 fun _ => ⟨u, List.mem_singleton_self u, h⟩
  file := List.forall_mem_singleton.2 ⟨a, List.mem_singleton_self a, h⟩

/-- Sources and build files end otherwise. -/
theorem other (h : ∀ a ∈ files, ∃ c, [c] <:+ a.path.text.toList ∧ c ≠ 'h') :
    Headed names rep files [] where
  spot a ha hending := by
    obtain ⟨c, ⟨front, hfront⟩, hc⟩ := h a ha
    obtain ⟨front', hfront'⟩ := hending
    have hlast : (front ++ [c]).getLast? = (front' ++ ".h".toList).getLast? := by
      rw [hfront, hfront']
    rw [List.getLast?_concat, List.getLast?_append] at hlast
    exact absurd (Option.some.inj hlast) hc
  file := List.forall_mem_nil _

/-- Only the headers count. -/
theorem of_perm (h : Headed names rep files spots) (hperm : spots.Perm others) :
    Headed names rep files others where
  spot a ha hending := (h.spot a ha hending).imp fun _ hu => ⟨hperm.mem_iff.1 hu.1, hu.2⟩
  file u hu := h.file u (hperm.mem_iff.2 hu)

theorem flatMap {α : Type} {items : List α} {f : α → List Artifact} {g : α → Spot}
    (h : ∀ x ∈ items, Headed names rep (f x) [g x]) :
    Headed names rep (items.flatMap f) (items.map g) := by
  induction items with
  | nil => exact nil
  | cons x items ih =>
    obtain ⟨hx, hitems⟩ := List.forall_mem_cons.1 h
    exact hx.append (ih hitems)

end Headed

section Files

variable {names : OutputNames} {rep : Representation}

theorem headed_message {d : Descriptor} (h : Naming.isIdentifier d.name = true) :
    Headed names rep (messageFiles names rep d) [messageSpot rep d] := by
  have hfile : OneLine s!"{d.name}.h" :=
    (oneLine_of_isWord (Naming.isWord_of_isIdentifier h)).append (oneLine_ofList _ (by decide))
  cases rep with
  | host =>
    have hheader : Heads names .host
        ⟨.host, HostClass.headerPath d, render (HostClass.header names d)⟩ (messageSpot .host d) :=
      { ending := Path.suffix_join (suffix_append _ List.suffix_rfl)
        components := (List.cons.inj (paths_hostClass names h)).1
        guard := includeGuard?_render names hfile (Naming.isWord_headerGuard _) _ }
    exact (Headed.header hheader).append (Headed.other (List.forall_mem_singleton.2
      ⟨'p', Path.suffix_join (suffix_append _ (by decide)), by decide⟩))
  | embedded =>
    have hheader : Heads names .embedded
        ⟨.embedded, ⟨s!"inc/{d.name}.h"⟩, render (RecordModule.header names d)⟩
        (messageSpot .embedded d) :=
      { ending := suffix_append _ List.suffix_rfl
        components := (List.cons.inj (paths_recordModule names h)).1
        guard := includeGuard?_render names hfile (Naming.isWord_headerGuard _) _ }
    exact (Headed.header hheader).append (Headed.other (List.forall_mem_singleton.2
      ⟨'c', suffix_append _ (by decide), by decide⟩))

/-- A header that both trees have. -/
theorem heads_treeHeader (stem : String) (h : IsName (stem ++ ".h")) (hstem : OneLine stem)
    (body : Lines) :
    Heads names rep ⟨rep, treeHeader rep (stem ++ ".h"),
      render (preamble names (stem ++ ".h") .block ++ guarded (treeGuard names rep stem) body)⟩
      ([], stem) where
  ending := by
    cases rep with
    | host => exact suffix_append _ List.suffix_rfl
    | embedded => exact suffix_append _ (suffix_append _ List.suffix_rfl)
  components := components_treeHeader rep h
  guard := by
    have hfile : OneLine (stem ++ ".h") := hstem.append (oneLine_ofList _ (by decide))
    rw [includeGuard?_render names hfile (isWord_treeGuard names rep stem) body]

theorem headed_enumerations (htype : Naming.isIdentifier names.typeEnum = true)
    (haddress : Naming.isIdentifier names.addressEnum = true) (r : Registry) :
    Headed names rep (enumerationFiles names r rep)
      [([], names.typeEnum), ([], names.addressEnum)] :=
  (Headed.header (heads_treeHeader _ (isName_append htype (by decide))
    (oneLine_of_isWord (Naming.isWord_of_isIdentifier htype)) _)).append
  (Headed.header (heads_treeHeader _ (isName_append haddress (by decide))
    (oneLine_of_isWord (Naming.isWord_of_isIdentifier haddress)) _))

/-- A header and a source at fixed paths. -/
theorem headed_fixed {rep rep' : Representation} {header source contents file : String} {u : Spot}
    {body : Lines} {c : Char}
    (hpath : ".h".toList <:+ header.toList ∧
      (⟨header⟩ : Path).components = u.file (headerTail rep) ".h")
    (hfile : OneLine file) (hsource : [c] <:+ source.toList ∧ c ≠ 'h') :
    Headed names rep
      [⟨rep', ⟨header⟩, render (preamble names file .block ++
        guarded (treeGuard names rep u.2) body)⟩, ⟨rep', ⟨source⟩, contents⟩] [u] := by
  have hheader : Heads names rep ⟨rep', ⟨header⟩, render (preamble names file .block ++
      guarded (treeGuard names rep u.2) body)⟩ u :=
    ⟨hpath.1, hpath.2, includeGuard?_render names hfile (isWord_treeGuard names rep u.2) body⟩
  exact (Headed.header hheader).append
    (Headed.other (List.forall_mem_singleton.2 ⟨c, hsource⟩))

theorem headed_parserHeader (r : Registry) :
    Headed names rep (parserFiles names r rep) [parserSpot rep] := by
  cases rep with
  | host =>
    have hpath : ".h".toList <:+ "Parser/Parser.h".toList ∧ (⟨"Parser/Parser.h"⟩ : Path).components =
        (parserSpot .host).file (headerTail .host) ".h" := by decide +kernel
    have hsource : ['p'] <:+ "Parser/src/Parser.cpp".toList ∧ 'p' ≠ 'h' := by decide
    have hguard : Naming.headerGuard s!"{names.spaceName}_Parser" =
        treeGuard names .host (parserSpot .host).2 := by
      have hname : s!"{names.spaceName}_Parser" = s!"{names.spaceName}_{(parserSpot .host).2}" := by
        apply String.toList_inj.1
        simp [parserSpot, toString]
      rw [hname, treeGuard]
    rw [parserFiles, parserSource, hostParserHeader, hguard]
    exact headed_fixed hpath (oneLine_ofList _ (by decide)) hsource
  | embedded =>
    have hpath : ".h".toList <:+ "inc/Msg_Parser.h".toList ∧
        (⟨"inc/Msg_Parser.h"⟩ : Path).components =
          (parserSpot .embedded).file (headerTail .embedded) ".h" := by decide +kernel
    have hsource : ['c'] <:+ "src/Msg_Parser.c".toList ∧ 'c' ≠ 'h' := by decide
    have hguard : Naming.headerGuard "Msg_Parser" =
        treeGuard names .embedded (parserSpot .embedded).2 := rfl
    rw [parserFiles, parserSource, recordParserHeader, hguard]
    exact headed_fixed hpath (oneLine_ofList _ (by decide)) hsource

theorem headed_supplements (s : Supplements) :
    Headed names rep (artifactsFor (supplementArtifacts names s) rep)
      (((s.sharedEnums.map fun _ => "msg_enums").toList ++
        (s.commonTypes.map fun _ => "common_types").toList).map ([], ·)) := by
  have hboth : ∀ (file : String) (lines : Representation → Lines),
      artifactsFor (inBothTrees file lines) rep =
        [⟨rep, treeHeader rep file, render (lines rep)⟩] := by
    intro file lines
    cases rep <;> rfl
  rw [supplementArtifacts, artifactsFor_append, List.map_append]
  refine Headed.append ?_ ?_
  · cases s.sharedEnums with
    | none => exact Headed.nil
    | some contents =>
      rw [hboth]
      exact Headed.header (heads_treeHeader "msg_enums" (by decide) (oneLine_ofList _ (by decide)) _)
  · cases s.commonTypes with
    | none => exact Headed.nil
    | some types =>
      rw [hboth]
      exact Headed.header
        (heads_treeHeader "common_types" (by decide) (oneLine_ofList _ (by decide)) _)

theorem headed_builds (r : Registry) : Headed names rep (buildFiles names r rep) [] := by
  have hcmake : ['e'] <:+ "messages.cmake".toList := by decide
  apply Headed.other
  cases rep with
  | host =>
    simp only [buildFiles, List.forall_mem_append, List.forall_mem_cons, List.forall_mem_map]
    exact ⟨fun i _ => ⟨'t', Path.suffix_join (by decide), by decide⟩, ⟨'t', by decide, by decide⟩,
      ⟨'t', by decide, by decide⟩, List.forall_mem_nil _⟩
  | embedded => exact List.forall_mem_singleton.2 ⟨'e', hcmake, by decide⟩

end Files

/-- The headers of a tree. -/
theorem headed_treeFiles {names : OutputNames} {r : Registry}
    (hmessages : ∀ d ∈ r.messages, Naming.isIdentifier d.name = true)
    (htype : Naming.isIdentifier names.typeEnum = true)
    (haddress : Naming.isIdentifier names.addressEnum = true) (s : Supplements)
    (rep : Representation) :
    Headed names rep (treeFiles names s r rep) (headerSpots names s r rep) := by
  have hfiles : Headed names rep (treeFiles names s r rep)
      ((r.messagesFor rep).map (messageSpot rep) ++
        [([], names.typeEnum), ([], names.addressEnum)] ++ [parserSpot rep] ++
        ((s.sharedEnums.map fun _ => "msg_enums").toList ++
          (s.commonTypes.map fun _ => "common_types").toList).map ([], ·) ++ []) :=
    ((((Headed.flatMap fun d hd => headed_message (hmessages d (List.mem_of_mem_filter hd))).append
      (headed_enumerations htype haddress r)).append (headed_parserHeader r)).append
      (headed_supplements s)).append (headed_builds r)
  refine hfiles.of_perm (List.perm_iff_count.2 fun u => ?_)
  simp only [headerSpots, sourceSpots, sharedStems, List.map_append, List.map_cons, List.map_nil,
    List.count_append, List.count_cons, List.count_nil]
  omega

theorem isWord_of_mem_headerSpots {names : OutputNames} {r : Registry}
    (hmessages : ∀ d ∈ r.messages, Naming.isIdentifier d.name = true)
    (htype : Naming.isIdentifier names.typeEnum = true)
    (haddress : Naming.isIdentifier names.addressEnum = true) (s : Supplements)
    (rep : Representation) : ∀ u ∈ headerSpots names s r rep, Naming.IsWord u.2 := by
  have hmessage : ∀ d ∈ r.messagesFor rep, Naming.IsWord (messageSpot rep d).2 := by
    intro d hd
    have hname := Naming.isWord_of_isIdentifier (hmessages d (List.mem_of_mem_filter hd))
    cases rep <;> exact hname
  have hparser : Naming.IsWord (parserSpot rep).2 := by
    cases rep <;> exact Naming.isWord_ofList _ (by decide)
  have hshared : ∀ stem ∈ sharedStems names s, Naming.IsWord stem := by
    simp only [sharedStems, List.forall_mem_append, List.forall_mem_cons, Option.mem_toList,
      Option.map_eq_some_iff]
    refine ⟨⟨⟨Naming.isWord_of_isIdentifier htype, Naming.isWord_of_isIdentifier haddress,
      List.forall_mem_nil _⟩, ?_⟩, ?_⟩
    · rintro _ ⟨-, -, rfl⟩
      exact Naming.isWord_ofList _ (by decide)
    · rintro _ ⟨-, -, rfl⟩
      exact Naming.isWord_ofList _ (by decide)
  simp only [headerSpots, sourceSpots, List.forall_mem_append, List.forall_mem_map,
    List.forall_mem_singleton]
  exact ⟨⟨hmessage, hparser⟩, hshared⟩

/-! ## Headers that can be included together -/

/-- The stems of two headers differ in more than the case of letters. -/
def StemsApart (names : OutputNames) (s : Supplements) (r : Registry) (rep : Representation) :
    Prop :=
  ∀ u ∈ headerSpots names s r rep, ∀ v ∈ headerSpots names s r rep, u ≠ v → Naming.Apart u.2 v.2

instance (names : OutputNames) (s : Supplements) (r : Registry) (rep : Representation) :
    Decidable (StemsApart names s r rep) :=
  inferInstanceAs (Decidable (∀ u ∈ _, ∀ v ∈ _, _))

/-- **Include guards.** Every schema that compiles under a valid configuration can be generated.
Every header of a tree has a guard, and two headers at different paths have different guards exactly
if the stems of two headers of the tree always differ in more than the case of letters. -/
theorem guards_differ_iff {config : Config} {messages : Source} {addresses : Option Source}
    {r : Registry} (hvalid : config.fault? = none)
    (h : (compile config messages addresses).outcome = .ok r) (s : Supplements) :
    ∃ artifacts, (generate config.output s r).outcome = .ok artifacts ∧ ∀ rep,
      (∀ a ∈ artifactsFor artifacts rep, ".h".toList <:+ a.path.text.toList →
        ∃ guard, includeGuard? (linesOf a.contents) = some guard) ∧
      ((∀ a ∈ artifactsFor artifacts rep, ∀ b ∈ artifactsFor artifacts rep,
        ".h".toList <:+ a.path.text.toList → ".h".toList <:+ b.path.text.toList →
          a.path.components ≠ b.path.components →
            includeGuard? (linesOf a.contents) ≠ includeGuard? (linesOf b.contents)) ↔
        StemsApart config.output s r rep) := by
  have hnamed := named_of_compile h
  obtain ⟨-, htype, haddress⟩ := Config.of_fault? hvalid
  obtain ⟨artifacts, hartifacts, hfiles⟩ :=
    artifactsFor_generate config.output s (shaped_of_compile h)
  refine ⟨artifacts, hartifacts, fun rep => ?_⟩
  have hheaded := headed_treeFiles hnamed.message htype haddress s rep
  have hwords := isWord_of_mem_headerSpots hnamed.message htype haddress s rep
  rw [hfiles rep]
  -- Headers and header spots correspond, so the question goes over from files to stems.
  refine ⟨fun a ha hending => ?_, fun hdiffer u hu v hv hne hsame => ?_,
    fun hapart a ha b hb hending hending' hne hsame => ?_⟩
  · obtain ⟨u, -, hhead⟩ := hheaded.spot a ha hending
    exact ⟨_, hhead.guard⟩
  · obtain ⟨a, ha, hhead⟩ := hheaded.file u hu
    obtain ⟨b, hb, hhead'⟩ := hheaded.file v hv
    refine hdiffer a ha b hb hhead.ending hhead'.ending ?_ ?_
    · rw [hhead.components, hhead'.components]
      exact (Spot.file_injective _ _).ne hne
    · rw [hhead.guard, hhead'.guard,
        (treeGuard_eq_iff config.output rep (hwords u hu) (hwords v hv)).2 hsame]
  · obtain ⟨u, hu, hhead⟩ := hheaded.spot a ha hending
    obtain ⟨v, hv, hhead'⟩ := hheaded.spot b hb hending'
    have hspots : u ≠ v := by
      rintro rfl
      exact hne (hhead.components.trans hhead'.components.symm)
    rw [hhead.guard, hhead'.guard, Option.some.injEq,
      treeGuard_eq_iff config.output rep (hwords u hu) (hwords v hv)] at hsame
    exact hapart u hu v hv hspots hsame

/-- Two interfaces and both hand-written headers. -/
theorem guards_differ_paired : ({} : Config).fault? = none ∧
    ∃ artifacts, (generate {} ⟨some "enum e;", some "typedef int t;", none⟩ .paired).outcome =
        .ok artifacts ∧
      ∀ rep, ∀ a ∈ artifactsFor artifacts rep, ∀ b ∈ artifactsFor artifacts rep,
        ".h".toList <:+ a.path.text.toList → ".h".toList <:+ b.path.text.toList →
          a.path.components ≠ b.path.components →
            includeGuard? (linesOf a.contents) ≠ includeGuard? (linesOf b.contents) := by
  have hvalid : ({} : Config).fault? = none := by decide +kernel
  obtain ⟨artifacts, hartifacts, hguards⟩ :=
    guards_differ_iff hvalid compile_paired ⟨some "enum e;", some "typedef int t;", none⟩
  refine ⟨hvalid, artifacts, hartifacts, fun rep => (hguards rep).2.2 ?_⟩
  cases rep <;> decide +kernel

/-- Two messages whose names differ in the case of a letter compile, and their embedded headers have
one guard. -/
theorem guards_of_case_variants :
    ∃ r artifacts,
      (compile {} ⟨"messages.txt", "*GS_FC_A\nMsg_A\nMsg_a\n*\n"⟩ none).outcome = .ok r ∧
      (generate {} {} r).outcome = .ok artifacts ∧
      ∃ a ∈ artifactsFor artifacts .embedded, ∃ b ∈ artifactsFor artifacts .embedded,
        (".h".toList <:+ a.path.text.toList ∧ ".h".toList <:+ b.path.text.toList) ∧
        a.path.components = [.normal "inc", .normal "Msg_A.h"] ∧
        b.path.components = [.normal "inc", .normal "Msg_a.h"] ∧
        includeGuard? (linesOf a.contents) = some "MSG_A_H_" ∧
        includeGuard? (linesOf b.contents) = some "MSG_A_H_" := by
  have hcompile : (compile {} ⟨"messages.txt", "*GS_FC_A\nMsg_A\nMsg_a\n*\n"⟩ none).outcome = .ok
      { interfaces := [⟨"GS_FC_A", ⟨true, true⟩, ⟨"messages.txt", 1⟩, ["Msg_A", "Msg_a"]⟩]
        messages := [⟨"Msg_A", "GS_FC_A", ⟨true, true⟩, [], [], false, ⟨"messages.txt", 2⟩⟩,
          ⟨"Msg_a", "GS_FC_A", ⟨true, true⟩, [], [], false, ⟨"messages.txt", 3⟩⟩] } :=
    Outcome.of_toOption (by decide +kernel)
  obtain ⟨artifacts, hartifacts, hfiles⟩ := artifactsFor_generate {} {} (shaped_of_compile hcompile)
  have hheaded : Headed {} .embedded (treeFiles {} {} _ .embedded) (headerSpots {} {} _ .embedded) :=
    headed_treeFiles (named_of_compile hcompile).message (by decide) (by decide) {} .embedded
  obtain ⟨a, ha, hhead⟩ := hheaded.file ([], "Msg_A") (by decide)
  obtain ⟨b, hb, hhead'⟩ := hheaded.file ([], "Msg_a") (by decide)
  refine ⟨_, artifacts, hcompile, hartifacts, a, ?_, b, ?_, ⟨hhead.ending, hhead'.ending⟩,
    hhead.components, hhead'.components, hhead.guard.trans ?_, hhead'.guard.trans ?_⟩
  · rwa [hfiles]
  · rwa [hfiles]
  · decide
  · decide

end Emit

end WireSchema
