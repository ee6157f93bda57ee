import Mathlib.Logic.Function.Basic
import WireSchema.Proofs.Emit.SourceLists

/-!
# Variables of the embedded build list

The build list of the embedded tree sets a variable for each interface to its sources, and then a
variable for all sources by reference to these. The variables are called after the interfaces, whose
names need not be identifiers and are folded for this.

**Theorem (`variables_differ_iff`).** The variables of a schema that compiles are different exactly
if no two embedded interfaces have names that fold to one. All sources then expand to those of the
interfaces in order, with the parser behind them. No source is missing from them exactly if an
interface with messages has none behind it whose name folds to the same.

A list that is set again forgets what it was set to before, so what a reference stands for is the
sources of the last interface with the variable (`expansion_blocks`).
-/

namespace WireSchema

namespace Emit

/-! ## Expansion -/

/-- What an item of a list stands for: a reference to a variable for its value, anything else for
itself. -/
def expandItem (values : String → List String) (item : String) : List String :=
  match between? "$\x7b" "\x7d" item with
  | some name => values name
  | none => [item]

def setList (values : String → List String) (list : String × List String) :
    String → List String :=
  Function.update values list.1 (list.2.flatMap (expandItem values))

/-- The values of all variables behind lists that are set in order. -/
def expansion (lists : List (String × List String)) : String → List String :=
  lists.foldl setList fun _ => []

theorem expansion_concat (lists : List (String × List String)) (list : String × List String) :
    expansion (lists ++ [list]) = setList (expansion lists) list := List.foldl_concat ..

theorem expandItem_cmakeRef (values : String → List String) (name : String) :
    expandItem values (cmakeRef name) = values name := by
  have hname : between? "$\x7b" "\x7d" (cmakeRef name) = some name := between?_eq_some_iff.2 rfl
  rw [expandItem, hname]

theorem expandItem_path (values : String → List String) {item : String}
    (h : first? item = some 's') : expandItem values item = [item] := by
  rw [expandItem, between?_eq_none (first?_ofList _ _) h (by decide)]

/-! ## Values of the variables -/

def sourcesOf (i : Interface) : List String := i.messages.map fun name => s!"src/{name}.c"

/-- The list of an interface as it is read. -/
def sourceBlock (i : Interface) : String × List String := (sourcesVariable i, sourcesOf i)

theorem flatMap_expandItem (values : String → List String) (i : Interface) :
    (sourcesOf i).flatMap (expandItem values) = sourcesOf i := by
  have hitem : ∀ item ∈ sourcesOf i, expandItem values item = [item] := by
    intro item hitem
    obtain ⟨name, -, rfl⟩ := List.mem_map.1 hitem
    exact expandItem_path values (first?_append (first?_append (first?_ofList _ _) _) _)
  rw [List.flatMap_congr hitem, List.flatMap_singleton']

/-- A variable has the sources of the last interface that sets it. -/
theorem expansion_blocks (interfaces : List Interface) (name : String) :
    expansion (interfaces.map sourceBlock) name =
      (interfaces.reverse.find? (sourcesVariable · == name)).elim [] sourcesOf := by
  induction interfaces using List.reverseRecOn with
  | nil => rfl
  | append_singleton interfaces i ih =>
    rw [List.map_append, List.map_singleton, expansion_concat, setList, sourceBlock,
      flatMap_expandItem, List.reverse_append, List.reverse_singleton, List.singleton_append,
      List.find?_cons]
    by_cases h : name = sourcesVariable i
    · rw [h, Function.update_self, beq_self_eq_true]
      rfl
    · rw [Function.update_of_ne h, ih, beq_false_of_ne (Ne.symm h)]

/-- The list of all sources as it is read. -/
def allBlock (interfaces : List Interface) : String × List String :=
  ("MSG_SOURCES", interfaces.map (fun i => cmakeRef (sourcesVariable i)) ++ ["src/Msg_Parser.c"])

/-- The interface whose sources the variable of `i` has. -/
def lastSetter? (interfaces : List Interface) (i : Interface) : Option Interface :=
  interfaces.reverse.find? (sourcesVariable · == sourcesVariable i)

theorem expansion_all (interfaces : List Interface) :
    expansion (interfaces.map sourceBlock ++ [allBlock interfaces]) "MSG_SOURCES" =
      interfaces.flatMap (fun i => (lastSetter? interfaces i).elim [] sourcesOf) ++
        ["src/Msg_Parser.c"] := by
  have hparser : expandItem (expansion (interfaces.map sourceBlock)) "src/Msg_Parser.c" =
      ["src/Msg_Parser.c"] := expandItem_path _ (first?_ofList _ _)
  have hreference : ∀ i ∈ interfaces,
      expandItem (expansion (interfaces.map sourceBlock)) (cmakeRef (sourcesVariable i)) =
        (lastSetter? interfaces i).elim [] sourcesOf := by
    intro i _
    rw [expandItem_cmakeRef, expansion_blocks, lastSetter?]
  rw [expansion_concat, setList, allBlock, Function.update_self, List.flatMap_append,
    List.flatMap_map, List.flatMap_singleton, hparser, List.flatMap_congr hreference]

/-- In a list without repetition only what stands behind an item follows it. -/
theorem pair_sublist_iff {α : Type} {front back : List α} {a b : α}
    (h : (front ++ a :: back).Nodup) : List.Sublist [a, b] (front ++ a :: back) ↔ b ∈ back := by
  induction front with
  | nil => rw [List.nil_append, List.cons_sublist_cons, List.singleton_sublist]
  | cons c front ih =>
    rw [List.cons_append, List.nodup_cons] at h
    have hne : a ≠ c := by
      rintro rfl
      exact h.1 (List.mem_append_right _ List.mem_cons_self)
    rw [← ih h.2, List.cons_append, List.sublist_cons_iff]
    simp [hne]

section Setters

variable {interfaces : List Interface} {i j : Interface}

theorem of_lastSetter? (h : lastSetter? interfaces i = some j) :
    j ∈ interfaces ∧ sourcesVariable j = sourcesVariable i := by
  have hfound := List.find?_some h
  exact ⟨List.mem_reverse.1 (List.mem_of_find?_eq_some h), beq_iff_eq.1 hfound⟩

theorem lastSetter?_congr (h : sourcesVariable i = sourcesVariable j) :
    lastSetter? interfaces i = lastSetter? interfaces j := by
  rw [lastSetter?, h, lastSetter?]

/-- An interface has its variable to the end exactly if none behind it sets the variable. -/
theorem lastSetter?_self_iff (hnodup : interfaces.Nodup) (hi : i ∈ interfaces) :
    lastSetter? interfaces i = some i ↔
      ∀ j, List.Sublist [i, j] interfaces → sourcesVariable i ≠ sourcesVariable j := by
  obtain ⟨front, back, rfl⟩ := List.append_of_mem hi
  have hfind : lastSetter? (front ++ i :: back) i =
      (back.reverse.find? (sourcesVariable · == sourcesVariable i)).or (some i) := by
    rw [lastSetter?, List.reverse_append, List.reverse_cons, List.append_assoc, List.find?_append,
      List.singleton_append,
      List.find?_cons_of_pos (p := (sourcesVariable · == sourcesVariable i)) (beq_self_eq_true _)]
  simp only [pair_sublist_iff hnodup, hfind]
  cases hback : back.reverse.find? (sourcesVariable · == sourcesVariable i) with
  | none =>
    simp only [List.find?_eq_none, List.mem_reverse, beq_iff_eq] at hback
    exact ⟨fun _ j hj heq => hback j hj heq.symm, fun _ => rfl⟩
  | some j =>
    have hj : j ∈ back := List.mem_reverse.1 (List.mem_of_find?_eq_some hback)
    have hfound := List.find?_some hback
    have hne : j ≠ i := by
      rintro rfl
      exact (List.nodup_cons.1 (List.nodup_append'.1 hnodup).2.1).1 hj
    rw [Option.some_or, Option.some.injEq]
    exact ⟨fun heq => absurd heq hne, fun hall => absurd (beq_iff_eq.1 hfound).symm (hall j hj)⟩

end Setters

theorem sourcesVariable_eq_iff {i j : Interface} :
    sourcesVariable i = sourcesVariable j ↔ Naming.Alike i.name j.name := by
  rw [← Naming.foldUpper_eq_iff_alike]
  constructor
  · intro h
    have hlist := congrArg String.toList h
    rw [← String.toList_inj]
    simpa [sourcesVariable, toString] using hlist
  · intro h
    rw [sourcesVariable, h, sourcesVariable]

theorem mem_sourcesOf_iff {i : Interface} {name : String} :
    s!"src/{name}.c" ∈ sourcesOf i ↔ name ∈ i.messages := by
  constructor
  · intro h
    obtain ⟨other, hother, heq⟩ := List.mem_map.1 h
    rwa [← source_inj.1 heq]
  · exact fun h => List.mem_map_of_mem h

/-! ## All sources -/

section All

variable {interfaces : List Interface}

/-- Variables that differ keep their sources. -/
theorem expansion_of_pairwise (hnodup : interfaces.Nodup)
    (h : interfaces.Pairwise fun i j => sourcesVariable i ≠ sourcesVariable j) :
    expansion (interfaces.map sourceBlock ++ [allBlock interfaces]) "MSG_SOURCES" =
      interfaces.flatMap sourcesOf ++ ["src/Msg_Parser.c"] := by
  have hown : ∀ i ∈ interfaces, (lastSetter? interfaces i).elim [] sourcesOf = sourcesOf i := by
    intro i hi
    have hlast := (lastSetter?_self_iff hnodup hi).2
      fun j hj => List.pairwise_iff_forall_sublist.1 h hj
    rw [hlast, Option.elim_some]
  rw [expansion_all, List.flatMap_congr hown]

variable (hlisted : ∀ {i j : Interface} {name : String}, i ∈ interfaces → j ∈ interfaces →
  name ∈ i.messages → name ∈ j.messages → i = j)
include hlisted

/-- A source stays if its interface has its variable to the end. The source of the parser is there
in any case. -/
theorem mem_expansion_all_iff {i : Interface} {name : String} (hi : i ∈ interfaces)
    (hname : name ∈ i.messages) :
    s!"src/{name}.c" ∈
        expansion (interfaces.map sourceBlock ++ [allBlock interfaces]) "MSG_SOURCES" ↔
      lastSetter? interfaces i = some i ∨ name = "Msg_Parser" := by
  have hparser : s!"src/{name}.c" = "src/Msg_Parser.c" ↔ name = "Msg_Parser" :=
    source_inj (b := "Msg_Parser")
  rw [expansion_all, List.mem_append, List.mem_singleton, hparser, List.mem_flatMap]
  refine or_congr_left ⟨?_, ?_⟩
  · rintro ⟨k, -, hsource⟩
    cases hlast : lastSetter? interfaces k with
    | none =>
      rw [hlast] at hsource
      cases hsource
    | some j =>
      obtain ⟨hj, hvariable⟩ := of_lastSetter? hlast
      rw [hlast, Option.elim_some, mem_sourcesOf_iff] at hsource
      have hij : j = i := hlisted hj hi hsource hname
      rw [hij] at hlast hvariable
      rw [lastSetter?_congr hvariable, hlast]
  · intro hlast
    refine ⟨i, hi, ?_⟩
    rw [hlast, Option.elim_some, mem_sourcesOf_iff]
    exact hname

theorem sourcesOf_subset_iff (hnodup : interfaces.Nodup) :
    (∀ i ∈ interfaces, sourcesOf i ⊆
        expansion (interfaces.map sourceBlock ++ [allBlock interfaces]) "MSG_SOURCES") ↔
      interfaces.Pairwise fun i j =>
        sourcesVariable i = sourcesVariable j → i.messages ⊆ ["Msg_Parser"] := by
  rw [List.pairwise_iff_forall_sublist]
  constructor
  · intro hall i j hij hvariable name hname
    have hi : i ∈ interfaces := hij.subset List.mem_cons_self
    have hsource := hall i hi (mem_sourcesOf_iff.2 hname)
    rcases (mem_expansion_all_iff hlisted hi hname).1 hsource with hlast | hparser
    · exact absurd hvariable ((lastSetter?_self_iff hnodup hi).1 hlast j hij)
    · exact List.mem_singleton.2 hparser
  · intro hpair i hi source hsource
    obtain ⟨name, hname, rfl⟩ := List.mem_map.1 hsource
    rw [mem_expansion_all_iff hlisted hi hname, lastSetter?_self_iff hnodup hi]
    by_cases hset : ∃ j, List.Sublist [i, j] interfaces ∧ sourcesVariable i = sourcesVariable j
    · obtain ⟨j, hij, hvariable⟩ := hset
      exact .inr (List.mem_singleton.1 (hpair hij hvariable hname))
    · exact .inl fun j hij hvariable => hset ⟨j, hij, hvariable⟩

end All

end Emit

open Emit

/-- The variables of the embedded build list, with `lists` as they are set, and what all sources
expand to. -/
structure Registry.SourceVariables (r : Registry) (lists : List (String × List String)) :
    Prop where
  /-- A variable is set for each interface in order, and one for all sources. -/
  names : lists.map Prod.fst =
    (r.interfacesFor .embedded).map sourcesVariable ++ ["MSG_SOURCES"]
  /-- No variable is set twice exactly if no two names fold to one. -/
  distinct_iff : (lists.map Prod.fst).Nodup ↔
    (r.interfacesFor .embedded).Pairwise fun i j => ¬ Naming.Alike i.name j.name
  /-- Variables that are set once expand to the sources of the interfaces in order. -/
  in_order : (lists.map Prod.fst).Nodup → expansion lists "MSG_SOURCES" =
    (r.interfacesFor .embedded).flatMap sourcesOf ++ ["src/Msg_Parser.c"]
  /-- No source is lost exactly if only interfaces without sources are set again. A message called
  as the parser has the source of the parser. -/
  complete_iff :
    (∀ i ∈ r.interfacesFor .embedded, sourcesOf i ⊆ expansion lists "MSG_SOURCES") ↔
      (r.interfacesFor .embedded).Pairwise fun i j =>
        Naming.Alike i.name j.name → i.messages ⊆ ["Msg_Parser"]

theorem Registry.Shaped.sourceVariables {r : Registry} (hr : r.Shaped) (names : OutputNames) :
    r.SourceVariables (buildLists (embeddedBuild names r)) := by
  have hlists : buildLists (embeddedBuild names r) =
      (r.interfacesFor .embedded).map sourceBlock ++ [allBlock (r.interfacesFor .embedded)] :=
    buildLists_embeddedBuild names r
  have hnodup : (r.interfacesFor .embedded).Nodup :=
    (List.Nodup.of_map _ hr.interfaces_nodup).filter _
  have hvariables : (buildLists (embeddedBuild names r)).map Prod.fst =
      (r.interfacesFor .embedded).map sourcesVariable ++ ["MSG_SOURCES"] := by
    rw [hlists, List.map_append, List.map_map]
    rfl
  have hdistinct : ((buildLists (embeddedBuild names r)).map Prod.fst).Nodup ↔
      (r.interfacesFor .embedded).Pairwise fun i j => sourcesVariable i ≠ sourcesVariable j := by
    rw [hvariables, ← List.concat_eq_append, List.nodup_concat, List.Nodup, List.pairwise_map]
    refine and_iff_right fun hmem => ?_
    obtain ⟨i, -, heq⟩ := List.mem_map.1 hmem
    exact sourcesVariable_ne i heq
  refine ⟨hvariables, ?_, ?_, ?_⟩
  · simp only [hdistinct, Ne, sourcesVariable_eq_iff]
  · intro h
    rw [hlists]
    exact expansion_of_pairwise hnodup (hdistinct.1 h)
  · simp only [← sourcesVariable_eq_iff]
    rw [hlists]
    refine sourcesOf_subset_iff (fun hi hj => ?_) hnodup
    exact hr.eq_of_listed (List.mem_of_mem_filter hi) (List.mem_of_mem_filter hj)

section Compile

variable {config : Config} {messages : Source} {addresses : Option Source} {r : Registry}
  (h : (compile config messages addresses).outcome = .ok r)
include h

theorem exists_embeddedBuild (names : OutputNames) (s : Supplements) :
    ∃ artifacts, (generate names s r).outcome = .ok artifacts ∧
      ∃ build ∈ artifacts, build.LiesAt .embedded ⟨"messages.cmake"⟩ ∧
        linesOf build.contents = embeddedBuild names r := by
  obtain ⟨artifacts, hgenerate, hfiles⟩ := artifactsFor_generate names s (shaped_of_compile h)
  have hfile : ⟨.embedded, ⟨"messages.cmake"⟩, render (embeddedBuild names r)⟩ ∈
      buildFiles names r .embedded := List.mem_cons_self
  exact ⟨artifacts, hgenerate, _,
    mem_of_mem_treeFiles names s hfiles (List.mem_append_right _ hfile),
    ⟨rfl, beq_self_eq_true _⟩, linesOf_embeddedBuild h names⟩

/-- The variables of the interfaces differ exactly if their names do when folded. -/
theorem variables_differ_iff (names : OutputNames) (s : Supplements) :
    ∃ artifacts, (generate names s r).outcome = .ok artifacts ∧
      ∃ build ∈ artifacts, build.LiesAt .embedded ⟨"messages.cmake"⟩ ∧
        r.SourceVariables (buildLists (linesOf build.contents)) := by
  obtain ⟨artifacts, hgenerate, build, hbuild, hlies, hlines⟩ := exists_embeddedBuild h names s
  refine ⟨artifacts, hgenerate, build, hbuild, hlies, ?_⟩
  rw [hlines]
  exact (shaped_of_compile h).sourceVariables names

end Compile

/-- Two interfaces whose names differ in a letter keep their sources. -/
theorem variables_differ_two :
    ∃ r artifacts,
      (compile {} ⟨"m", "*FC_A-B\nMsg_P\n*\n*FC_A_C\nMsg_Q\n*\n"⟩ none).outcome = .ok r ∧
      (generate {} {} r).outcome = .ok artifacts ∧
      ∃ build ∈ artifacts, build.LiesAt .embedded ⟨"messages.cmake"⟩ ∧
        ((buildLists (linesOf build.contents)).map Prod.fst).Nodup ∧
        expansion (buildLists (linesOf build.contents)) "MSG_SOURCES" =
          ["src/Msg_P.c", "src/Msg_Q.c", "src/Msg_Parser.c"] := by
  have hcompile : (compile {} ⟨"m", "*FC_A-B\nMsg_P\n*\n*FC_A_C\nMsg_Q\n*\n"⟩ none).outcome = .ok
      { interfaces := [⟨"FC_A-B", ⟨false, true⟩, ⟨"m", 1⟩, ["Msg_P"]⟩,
          ⟨"FC_A_C", ⟨false, true⟩, ⟨"m", 4⟩, ["Msg_Q"]⟩]
        messages := [⟨"Msg_P", "FC_A-B", ⟨false, true⟩, [], [], false, ⟨"m", 2⟩⟩,
          ⟨"Msg_Q", "FC_A_C", ⟨false, true⟩, [], [], false, ⟨"m", 5⟩⟩] } :=
    Outcome.of_toOption (by decide +kernel)
  obtain ⟨artifacts, hgenerate, build, hbuild, hlies, hvariables⟩ :=
    variables_differ_iff hcompile {} {}
  have hdistinct := hvariables.distinct_iff.2 (by decide)
  exact ⟨_, artifacts, hcompile, hgenerate, build, hbuild, hlies, hdistinct,
    (hvariables.in_order hdistinct).trans (by decide)⟩

/-- Two interfaces whose names differ in the sign between two letters compile, and have one
variable. The first loses its source, and that of the second is listed twice. -/
theorem variables_of_sign_variants :
    ∃ r artifacts,
      (compile {} ⟨"messages.txt", "*FC_A-B\nMsg_P\n*\n*FC_A_B\nMsg_Q\n*\n"⟩ none).outcome =
        .ok r ∧
      (r.interfacesFor .embedded).map Interface.name = ["FC_A-B", "FC_A_B"] ∧
      (generate {} {} r).outcome = .ok artifacts ∧
      ∃ build ∈ artifacts, build.LiesAt .embedded ⟨"messages.cmake"⟩ ∧
        (buildLists (linesOf build.contents)).map Prod.fst =
          ["MSG_FC_A_B_SOURCES", "MSG_FC_A_B_SOURCES", "MSG_SOURCES"] ∧
        expansion (buildLists (linesOf build.contents)) "MSG_SOURCES" =
          ["src/Msg_Q.c", "src/Msg_Q.c", "src/Msg_Parser.c"] := by
  have hcompile : (compile {} ⟨"messages.txt", "*FC_A-B\nMsg_P\n*\n*FC_A_B\nMsg_Q\n*\n"⟩
      none).outcome = .ok
      { interfaces := [⟨"FC_A-B", ⟨false, true⟩, ⟨"messages.txt", 1⟩, ["Msg_P"]⟩,
          ⟨"FC_A_B", ⟨false, true⟩, ⟨"messages.txt", 4⟩, ["Msg_Q"]⟩]
        messages := [⟨"Msg_P", "FC_A-B", ⟨false, true⟩, [], [], false, ⟨"messages.txt", 2⟩⟩,
          ⟨"Msg_Q", "FC_A_B", ⟨false, true⟩, [], [], false, ⟨"messages.txt", 5⟩⟩] } :=
    Outcome.of_toOption (by decide +kernel)
  obtain ⟨artifacts, hgenerate, build, hbuild, hlies, hlines⟩ :=
    exists_embeddedBuild hcompile {} {}
  refine ⟨_, artifacts, hcompile, rfl, hgenerate, build, hbuild, hlies, ?_, ?_⟩
  · rw [hlines, ((shaped_of_compile hcompile).sourceVariables {}).names]
    decide
  · rw [hlines, buildLists_embeddedBuild]
    exact (expansion_all _).trans (by decide)

end WireSchema
