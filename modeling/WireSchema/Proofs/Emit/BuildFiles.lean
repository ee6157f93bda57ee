import WireSchema.Emit.BuildLists
import WireSchema.Proofs.Emit.Reading

/-!
# What build files list

A build file is read as its lists with their items, the directories it adds and the libraries it
links. Each emitter of a build file is followed by what is read from its lines
(`buildLists_interfaceBuild`, `subdirectories_hostBuild`, `linkedLibraries_hostParserBuild`,
`buildLists_embeddedBuild`), and by the fact that these are lines, so that the text has no others.
No configuration changes what is read, since the banner is behind comment signs.
-/

namespace WireSchema

namespace Emit

/-! ## Reading build files -/

def listName? (line : String) : Option String :=
  if last? line = some ')' then none else between? "set(" "" line

/-- The text without quotes around it. -/
def unquoted (text : String) : String := (between? "\"" "\"" text).getD text

/-- A path as it is written from the directory of its list. -/
def fromList (path : String) : String :=
  (between? (cmakeRef "CMAKE_CURRENT_LIST_DIR" ++ "/") "" path).getD path

/-- An item of a list: a path without margin and quotes, from the directory of the list. -/
def listItem (line : String) : String := fromList (unquoted (unindent line))

/-- The lists of a build file with their items. -/
def buildLists (lines : Lines) : List (String × List String) :=
  (sections listName? (· == ")") lines).map fun s => (s.1, s.2.map listItem)

/-- The directories that a build file adds. -/
def subdirectories (lines : Lines) : List String :=
  lines.filterMap (between? "add_subdirectory(" ")")

/-- The libraries of a build file with those that are linked to them. -/
def linkedLibraries (lines : Lines) : List (String × List String) :=
  (sections (between? "target_link_libraries(" "") (· == ")") lines).map fun s =>
    (s.1, s.2.map unindent)

/-! ## What the emitters write -/

theorem listName?_eq_none {line : String} {x : Option Char} (hl : first? line = x)
    (h : x ≠ some 's') : listName? line = none := by
  rw [listName?]
  split
  · rfl
  · exact between?_eq_none (first?_ofList _ _) hl h ""

theorem listName?_opening {line name : String} {c : Char} (hl : last? line = some c) (h : c ≠ ')')
    (hline : line = "set(" ++ name) : listName? line = some name := by
  rw [listName?, hl, if_neg fun heq => h (Option.some.inj heq), between?_eq_some_iff,
    String.append_empty]
  exact hline

theorem listName?_of_mem_hash {names : OutputNames} {file line : String}
    (h : line ∈ preamble names file .hash) : listName? line = none := by
  rcases first?_of_mem_hash h with hfirst | hfirst
  · exact listName?_eq_none hfirst (by decide)
  · exact listName?_eq_none hfirst (by decide)

/-- Items stand behind a tab, so none of them opens or closes a list. -/
theorem not_listName?_of_tab {line : String} (h : first? line = some '\t') :
    listName? line = none ∧ (line == ")") = false := by
  refine ⟨listName?_eq_none h (by decide), ?_⟩
  apply beq_false_of_ne
  intro heq
  rw [heq] at h
  exact absurd h (by decide)

theorem first?_includeDirectories (library : String) :
    first? (includeDirectories library) = some 't' :=
  first?_append (first?_append (first?_append (first?_append (first?_append (first?_append
    (first?_ofList _ _) _) _) _) _) _) _

theorem prefix_includeDirectories (library : String) :
    ['t', 'a', 'r', 'g', 'e', 't', '_', 'i'] <+: (includeDirectories library).toList := by
  have hliteral : ['t', 'a', 'r', 'g', 'e', 't', '_', 'i'] <+:
      "target_include_directories(".toList := by decide
  exact prefix_append (prefix_append (prefix_append (prefix_append (prefix_append (prefix_append
    hliteral _) _) _) _) _) _

theorem first?_hereRef : first? (cmakeRef "CMAKE_CURRENT_LIST_DIR" ++ "/") = some '$' :=
  first?_append (first?_append (first?_append (first?_ofList _ _) _) _) _

theorem listItem_hostSource (name : String) :
    listItem s!"\t\"{hostSource name}\"" = hostSource name := by
  have hline : s!"\t\"{hostSource name}\"" = "\t" ++ ("\"" ++ hostSource name ++ "\"") := by
    rw [← String.toList_inj]
    simp [toString]
  have hquote : first? ("\"" ++ hostSource name ++ "\"") = some '"' :=
    first?_append (first?_append (first?_ofList _ _) _) _
  have hfirst : first? (hostSource name) = some 's' :=
    first?_append (first?_append (first?_ofList _ _) _) _
  rw [listItem, hline, isMargin_tab.unindent_append, unindent_of_first? (by rw [hquote]; decide),
    unquoted, between?_eq_some_iff.2 rfl, Option.getD_some, fromList,
    between?_eq_none first?_hereRef hfirst (by decide), Option.getD_none]

theorem listItem_embeddedSource (file : String) :
    listItem ("\t" ++ embeddedSource file) = "src/" ++ file := by
  have hfirst : first? (embeddedSource file) = some '$' :=
    first?_append (first?_append (first?_append (first?_ofList _ _) _) _) _
  have hpath : embeddedSource file =
      cmakeRef "CMAKE_CURRENT_LIST_DIR" ++ "/" ++ ("src/" ++ file) ++ "" := by
    rw [embeddedSource, ← String.toList_inj]
    simp [toString]
  rw [listItem, isMargin_tab.unindent_append, unindent_of_first? (by rw [hfirst]; decide), unquoted,
    between?_eq_none (first?_ofList _ _) hfirst (by decide), Option.getD_none, fromList,
    between?_eq_some_iff.2 hpath, Option.getD_some]

/-- A list with what follows it. -/
theorem buildLists_list {head name : String} (hhead : listName? head = some name) {items : Lines}
    (hitems : ∀ line ∈ items, first? line = some '\t') (rest : Lines) :
    buildLists (head :: (items ++ ")" :: rest)) =
      (name, items.map listItem) :: buildLists rest := by
  rw [buildLists, sections_titled hhead
    (fun line hline => not_listName?_of_tab (hitems line hline)),
    sections_cons_of_none (listName?_eq_none (first?_ofList _ _) (by decide)), List.map_cons]
  · rfl
  · intro line hline
    cases hline
    decide

theorem buildLists_append {lines : Lines} (h : ∀ line ∈ lines, listName? line = none)
    (rest : Lines) : buildLists (lines ++ rest) = buildLists rest := by
  rw [buildLists, sections_append h, buildLists]

theorem buildLists_eq_nil {lines : Lines} (h : ∀ line ∈ lines, listName? line = none) :
    buildLists lines = [] := by
  rw [buildLists, sections_of_untitled h, List.map_nil]

theorem buildLists_interfaceBuild (names : OutputNames) (i : Interface) :
    buildLists (interfaceBuild names i) = [("SOURCES", i.messages.map hostSource)] := by
  have hhead : listName? "set(SOURCES" = some "SOURCES" :=
    listName?_opening (last?_ofList rfl) (by decide) (by decide)
  have hitems : ∀ line ∈ i.messages.map (fun name => s!"\t\"{hostSource name}\""),
      first? line = some '\t' := by
    simp only [List.forall_mem_map]
    intro name _
    exact first?_append (first?_append (first?_ofList _ _) _) _
  have hafter : ∀ line ∈ ["", s!"add_library({i.name} " ++ cmakeRef "SOURCES" ++ ")",
      includeDirectories i.name, s!"target_link_libraries({i.name} MsgBase)"],
      listName? line = none := by
    simp only [List.forall_mem_cons]
    refine ⟨listName?_eq_none rfl (by decide), ?_, ?_, ?_, fun _ h => absurd h List.not_mem_nil⟩
    · refine listName?_eq_none (x := some 'a') ?_ (by decide)
      exact first?_append (first?_append (first?_append (first?_append (first?_ofList _ _) _) _) _) _
    · refine listName?_eq_none (x := some 't') ?_ (by decide)
      exact first?_includeDirectories i.name
    · refine listName?_eq_none (x := some 't') ?_ (by decide)
      exact first?_append (first?_append (first?_ofList _ _) _) _
  have hitem : listItem ∘ (fun name => s!"\t\"{hostSource name}\"") = hostSource := by
    funext name
    rw [Function.comp_apply, listItem_hostSource]
  rw [interfaceBuild, List.append_assoc, List.append_assoc,
    buildLists_append fun line hline => listName?_of_mem_hash hline, List.singleton_append,
    buildLists_list hhead hitems, buildLists_eq_nil hafter, List.map_map, hitem]

theorem subdirectories_hostBuild (names : OutputNames) (r : Registry) :
    subdirectories (hostBuild names r) = (r.interfacesFor .host).map Interface.name ++ ["Parser"] := by
  have htop : (preamble names "CMakeLists.txt" .hash).filterMap
      (between? "add_subdirectory(" ")") = [] := by
    rw [List.filterMap_eq_nil_iff]
    intro line hline
    rcases first?_of_mem_hash hline with hfirst | hfirst
    · exact between?_eq_none (first?_ofList _ _) hfirst (by decide) _
    · exact between?_eq_none (first?_ofList _ _) hfirst (by decide) _
  have hadded : between? "add_subdirectory(" ")" ∘ (fun i : Interface =>
      s!"add_subdirectory({i.name})") = some ∘ Interface.name := by
    funext i
    exact between?_eq_some_iff.2 rfl
  have hparser : between? "add_subdirectory(" ")" "add_subdirectory(Parser)" = some "Parser" :=
    between?_eq_some_iff.2 (by decide)
  rw [subdirectories, hostBuild, List.filterMap_append, List.filterMap_append, htop,
    List.filterMap_map, hadded, List.filterMap_eq_map, List.nil_append, List.filterMap_cons, hparser]
  rfl

theorem linkedLibraries_hostParserBuild (names : OutputNames) {r : Registry}
    (h : ∀ i ∈ r.interfacesFor .host, (first? i.name).any isBlank = false) :
    linkedLibraries (hostParserBuild names r) =
      [("Parser", (r.interfacesFor .host).map Interface.name)] := by
  have hhead : between? "target_link_libraries(" "" "target_link_libraries(Parser" =
      some "Parser" := between?_eq_some_iff.2 (by decide)
  -- No line but the title opens a list: not the ones before it, not its items, not its end.
  have hbefore : ∀ line ∈ preamble names "CMakeLists.txt" .hash ++
      ["add_library(Parser src/Parser.cpp)", includeDirectories "Parser"],
      between? "target_link_libraries(" "" line = none := by
    simp only [List.forall_mem_append, List.forall_mem_cons]
    refine ⟨fun line hline => ?_, ?_, ?_, fun _ h => absurd h List.not_mem_nil⟩
    · rcases first?_of_mem_hash hline with hfirst | hfirst
      · exact between?_eq_none (first?_ofList _ _) hfirst (by decide) _
      · exact between?_eq_none (first?_ofList _ _) hfirst (by decide) _
    · exact between?_eq_none (first?_ofList _ _) (first?_ofList _ _) (by decide) _
    · exact between?_eq_none_of_clash (prefix_ofList _) (prefix_includeDirectories "Parser")
        (by decide) _
  have hlinked : ∀ line ∈ (r.interfacesFor .host).map (fun i => s!"\t{i.name}"),
      between? "target_link_libraries(" "" line = none ∧ (line == ")") = false := by
    simp only [List.forall_mem_map]
    intro i _
    have hfirst : first? s!"\t{i.name}" = some '\t' := first?_append (first?_ofList _ _) _
    exact ⟨between?_eq_none (first?_ofList _ _) hfirst (by decide) _,
      (not_listName?_of_tab hfirst).2⟩
  have hclose : ∀ line ∈ [")"], between? "target_link_libraries(" "" line = none := by
    simp only [List.forall_mem_singleton]
    exact between?_eq_none (first?_ofList _ _) (first?_ofList _ _) (by decide) _
  have hitem : ((r.interfacesFor .host).map (fun i => s!"\t{i.name}")).map unindent =
      (r.interfacesFor .host).map Interface.name := by
    rw [List.map_map]
    apply List.map_congr_left
    intro i hi
    exact (isMargin_tab.unindent_append i.name).trans (unindent_of_first? (h i hi))
  have hlines : hostParserBuild names r = (preamble names "CMakeLists.txt" .hash ++
      ["add_library(Parser src/Parser.cpp)", includeDirectories "Parser"]) ++
      "target_link_libraries(Parser" ::
        ((r.interfacesFor .host).map (fun i => s!"\t{i.name}") ++ [")"]) := by
    simp [hostParserBuild]
  rw [linkedLibraries, hlines, sections_append hbefore, sections_titled hhead hlinked,
    sections_of_untitled hclose, List.map_cons, hitem, List.map_nil]
  intro line hline
  cases hline
  decide

/-! ### The embedded list -/

theorem last?_sourcesVariable (i : Interface) : last? (sourcesVariable i) = some 'S' :=
  last?_append _ (last?_ofList rfl)

theorem buildLists_interfaceSources (i : Interface) (rest : Lines) :
    buildLists (interfaceSources i ++ rest) =
      (sourcesVariable i, i.messages.map fun name => s!"src/{name}.c") ::
        buildLists rest := by
  have hhead : listName? s!"set({sourcesVariable i}" = some (sourcesVariable i) :=
    listName?_opening (last?_append _ (last?_sourcesVariable i)) (by decide) rfl
  have hitems : ∀ line ∈ i.messages.map (fun name => "\t" ++ embeddedSource s!"{name}.c"),
      first? line = some '\t' := by
    simp only [List.forall_mem_map]
    intro name _
    exact first?_append (first?_ofList _ _) _
  have hitem : listItem ∘ (fun name : String => "\t" ++ embeddedSource s!"{name}.c") =
      fun name => s!"src/{name}.c" := by
    funext name
    rw [Function.comp_apply, listItem_embeddedSource, ← String.append_assoc]
    rfl
  have hlines : interfaceSources i ++ rest = s!"set({sourcesVariable i}" ::
      (i.messages.map (fun name => "\t" ++ embeddedSource s!"{name}.c") ++
        ")" :: ([""] ++ rest)) := by
    simp [interfaceSources]
  have hempty : ∀ line ∈ [""], listName? line = none := by
    simp only [List.forall_mem_singleton]
    exact listName?_eq_none rfl (by decide)
  rw [hlines, buildLists_list hhead hitems, buildLists_append hempty, List.map_map, hitem]

theorem buildLists_flatMap (interfaces : List Interface) (rest : Lines) :
    buildLists (interfaces.flatMap interfaceSources ++ rest) =
      interfaces.map (fun i =>
        (sourcesVariable i, i.messages.map fun name => s!"src/{name}.c")) ++
      buildLists rest := by
  induction interfaces with
  | nil => rfl
  | cons i interfaces ih =>
    rw [List.flatMap_cons, List.append_assoc, buildLists_interfaceSources, ih, List.map_cons,
      List.cons_append]

/-- A reference to a variable is not taken for a path. -/
theorem listItem_sourcesVariable (i : Interface) :
    listItem ("\t" ++ cmakeRef (sourcesVariable i)) = cmakeRef (sourcesVariable i) := by
  have hfirst : first? (cmakeRef (sourcesVariable i)) = some '$' :=
    first?_append (first?_append (first?_ofList _ _) _) _
  have hhere : ['$', '\x7b', 'C'] <+: (cmakeRef "CMAKE_CURRENT_LIST_DIR" ++ "/").toList := by decide
  have hvariable : ['$', '\x7b', 'M'] <+: (cmakeRef (sourcesVariable i)).toList :=
    ⟨['S', 'G', '_'] ++ (Naming.foldUpper i.name).toList ++ "_SOURCES\x7d".toList,
      by simp [cmakeRef, sourcesVariable, toString]⟩
  rw [listItem, isMargin_tab.unindent_append, unindent_of_first? (by rw [hfirst]; decide), unquoted,
    between?_eq_none (first?_ofList _ _) hfirst (by decide), Option.getD_none, fromList,
    between?_eq_none_of_clash hhere hvariable (by decide), Option.getD_none]

theorem buildLists_embeddedBuild (names : OutputNames) (r : Registry) :
    buildLists (embeddedBuild names r) =
      (r.interfacesFor .embedded).map (fun i =>
        (sourcesVariable i, i.messages.map fun name => s!"src/{name}.c")) ++
      [("MSG_SOURCES", (r.interfacesFor .embedded).map (fun i => cmakeRef (sourcesVariable i)) ++
        ["src/Msg_Parser.c"])] := by
  have hhead : listName? "set(MSG_SOURCES" = some "MSG_SOURCES" :=
    listName?_opening (last?_ofList rfl) (by decide) (by decide)
  have hitems : ∀ line ∈ (r.interfacesFor .embedded).map
      (fun i => "\t" ++ cmakeRef (sourcesVariable i)) ++ ["\t" ++ embeddedSource "Msg_Parser.c"],
      first? line = some '\t' := by
    simp only [List.forall_mem_append, List.forall_mem_map, List.forall_mem_singleton]
    exact ⟨fun i _ => first?_append (first?_ofList _ _) _, first?_append (first?_ofList _ _) _⟩
  have hafter : ∀ line ∈ ["", "set(MSG_INCLUDE_DIRS " ++ cmakeRef "CMAKE_CURRENT_LIST_DIR" ++ "/inc)"],
      listName? line = none := by
    simp only [List.forall_mem_cons]
    refine ⟨listName?_eq_none rfl (by decide), ?_, fun _ h => absurd h List.not_mem_nil⟩
    rw [listName?, if_pos (last?_append _ (last?_ofList rfl))]
  have hlines : embeddedBuild names r = preamble names "messages.cmake" .hash ++
      ((r.interfacesFor .embedded).flatMap interfaceSources ++ "set(MSG_SOURCES" ::
        (((r.interfacesFor .embedded).map (fun i => "\t" ++ cmakeRef (sourcesVariable i)) ++
          ["\t" ++ embeddedSource "Msg_Parser.c"]) ++ ")" ::
          ["", "set(MSG_INCLUDE_DIRS " ++ cmakeRef "CMAKE_CURRENT_LIST_DIR" ++ "/inc)"])) := by
    simp [embeddedBuild]
  have hrefs : ((r.interfacesFor .embedded).map fun i => "\t" ++ cmakeRef (sourcesVariable i)).map
      listItem = (r.interfacesFor .embedded).map fun i => cmakeRef (sourcesVariable i) := by
    rw [List.map_map]
    apply List.map_congr_left
    intro i _
    rw [Function.comp_apply, listItem_sourcesVariable]
  have hparser : "src/" ++ "Msg_Parser.c" = "src/Msg_Parser.c" := by decide
  rw [hlines, buildLists_append fun line hline => listName?_of_mem_hash hline,
    buildLists_flatMap, buildLists_list hhead hitems, buildLists_eq_nil hafter, List.map_append, hrefs,
    List.map_singleton, listItem_embeddedSource, hparser]

/-! ### Lines -/

theorem oneLine_interfaceBuild (names : OutputNames) {i : Interface} (hi : OneLine i.name)
    (hm : ∀ name ∈ i.messages, OneLine name) :
    ∀ line ∈ interfaceBuild names i, OneLine line := by
  simp only [interfaceBuild, List.forall_mem_append, List.forall_mem_cons, List.forall_mem_map,
    List.not_mem_nil, false_implies, implies_true, and_true]
  refine ⟨⟨⟨oneLine_preamble names ?_ .hash, ?_⟩, fun name hname => ?_⟩, ?_, ?_, ?_, ?_, ?_⟩
  all_goals
    repeat' first
      | exact hi
      | exact hm name hname
      | apply OneLine.append
      | exact oneLine_ofList _ (by decide)

section Tree

variable (names : OutputNames) {r : Registry} (hr : ∀ i ∈ r.interfaces, OneLine i.name)
include hr

theorem oneLine_hostBuild : ∀ line ∈ hostBuild names r, OneLine line := by
  simp only [hostBuild, List.forall_mem_append, List.forall_mem_map, List.forall_mem_singleton]
  refine ⟨⟨oneLine_preamble names ?_ .hash, fun i hi => ?_⟩, ?_⟩
  all_goals
    repeat' first
      | exact hr i (List.mem_of_mem_filter hi)
      | apply OneLine.append
      | exact oneLine_ofList _ (by decide)

theorem oneLine_hostParserBuild : ∀ line ∈ hostParserBuild names r, OneLine line := by
  simp only [hostParserBuild, List.forall_mem_append, List.forall_mem_cons, List.forall_mem_map,
    List.not_mem_nil, false_implies, implies_true, and_true]
  refine ⟨⟨⟨oneLine_preamble names ?_ .hash, ?_, ?_, ?_⟩, fun i hi => ?_⟩, ?_⟩
  all_goals
    repeat' first
      | exact hr i (List.mem_of_mem_filter hi)
      | apply OneLine.append
      | exact oneLine_ofList _ (by decide)

end Tree

theorem oneLine_cmakeRef {name : String} (h : OneLine name) : OneLine (cmakeRef name) :=
  ((oneLine_ofList _ (by decide)).append h).append (oneLine_ofList _ (by decide))

theorem oneLine_embeddedSource {file : String} (h : OneLine file) : OneLine (embeddedSource file) :=
  (oneLine_cmakeRef (oneLine_ofList _ (by decide))).append ((oneLine_ofList _ (by decide)).append h)

/-- The variable of an interface is a word, whatever the interface is called. -/
theorem oneLine_sourcesVariable (i : Interface) : OneLine (sourcesVariable i) :=
  ((oneLine_ofList _ (by decide)).append (oneLine_of_isWord (Naming.isWord_foldUpper i.name))).append
    (oneLine_ofList _ (by decide))

theorem oneLine_embeddedBuild (names : OutputNames) {r : Registry}
    (hm : ∀ i ∈ r.interfaces, ∀ name ∈ i.messages, OneLine name) :
    ∀ line ∈ embeddedBuild names r, OneLine line := by
  simp only [embeddedBuild, interfaceSources, List.forall_mem_append, List.forall_mem_cons,
    List.forall_mem_map, List.forall_mem_flatMap, List.not_mem_nil, false_implies, implies_true,
    and_true]
  refine ⟨⟨⟨⟨oneLine_preamble names ?_ .hash, fun i hi => ⟨⟨?_, fun name hname => ?_⟩, ?_, ?_⟩⟩, ?_⟩,
    fun i hi => ?_⟩, ?_, ?_, ?_, ?_⟩
  · exact oneLine_ofList _ (by decide)
  · exact (oneLine_ofList _ (by decide)).append (oneLine_sourcesVariable i)
  · have hfile := (hm i (List.mem_of_mem_filter hi) name hname).append (oneLine_ofList ['.', 'c'] (by decide))
    exact (oneLine_ofList _ (by decide)).append (oneLine_embeddedSource hfile)
  · exact oneLine_ofList _ (by decide)
  · exact oneLine_empty
  · exact oneLine_ofList _ (by decide)
  · exact (oneLine_ofList _ (by decide)).append (oneLine_cmakeRef (oneLine_sourcesVariable i))
  · exact (oneLine_ofList _ (by decide)).append
      (oneLine_embeddedSource (oneLine_ofList _ (by decide)))
  · exact oneLine_ofList _ (by decide)
  · exact oneLine_empty
  · exact ((oneLine_ofList _ (by decide)).append
      (oneLine_cmakeRef (oneLine_ofList _ (by decide)))).append (oneLine_ofList _ (by decide))

end Emit

end WireSchema
