import WireSchema.Proofs.Disk.Spelling
import WireSchema.Proofs.Output.Files
import WireSchema.Proofs.Output.Refusal

/-!
# The two trees do not mix

**Theorem (`writeTrees_unmixed`).** When both trees have been written, their roots are directories
neither of which lies in the other. Each has the manifest of its own representation, with the keys
of its own artifacts.

The roots are compared by their components before anything is written. For a root that leads to
something these are the names of its place. For all others they are those of the path, which come to
the same if the path has no step back (`on_comparable`). Otherwise roots can pass for different ones
although they have the same place, and one tree is written over the other (`writeTrees_mixed`).

Each run ends with the manifest of its tree (`records_of_writeTree`). The second run changes nothing
in the first tree, since it stays in its own (`confined_of_writeTree`). But it may remove
directories of its own, and then a path to the first root that leads through one of them leads
nowhere.
-/

namespace WireSchema

open Disk

namespace Disk

variable {cwd place : Place} {p : Path}

/-! ## Places of names -/

theorem Place.isName_foldl_turn {parts : List String} (hplace : ∀ name ∈ place, IsName name)
    (hparts : ∀ part ∈ parts, part = ".." ∨ IsName part) :
    ∀ name ∈ parts.foldl turn place, IsName name := by
  induction parts generalizing place with
  | nil => exact hplace
  | cons part parts ih =>
    refine ih ?_ fun part' hpart' => hparts part' (List.mem_cons_of_mem _ hpart')
    intro name hname
    rcases hparts part List.mem_cons_self with rfl | hpart
    · exact hplace name ((List.dropLast_prefix place).mem hname)
    · rw [turn, if_neg hpart.2.1, if_neg hpart.2.2.1, List.mem_append, List.mem_singleton] at hname
      rcases hname with hname | rfl
      · exact hplace name hname
      · exact hpart

/-- A working directory of names is where it leads. -/
theorem start_of_names (hcwd : ∀ name ∈ cwd, IsName name) (p : Path) :
    Place.start cwd p = if p.isAbsolute then [] else cwd := by
  rw [Place.start, Place.foldl_turn_names fun name hname => ⟨(hcwd name hname).2.1,
    (hcwd name hname).2.2.1⟩]
  rfl

theorem isName_placeOf (hcwd : ∀ name ∈ cwd, IsName name) (p : Path) :
    ∀ name ∈ placeOf cwd p, IsName name := by
  refine Place.isName_foldl_turn ?_ fun part hpart => ?_
  · rw [start_of_names hcwd]
    intro name hname
    split_ifs at hname
    · cases hname
    · exact hcwd name hname
  · by_cases hup : part = ".."
    · exact .inl hup
    · exact .inr (Path.isName_of_mem_moves hpart hup)

theorem placeOf_of_names (hcwd : ∀ name ∈ cwd, IsName name) (hup : ".." ∉ p.moves) :
    placeOf cwd p = (if p.isAbsolute then [] else cwd) ++ p.moves := by
  rw [placeOf, start_of_names hcwd]
  refine Place.foldl_turn_names (fun name hname => ⟨?_, fun heq => hup (heq ▸ hname)⟩) _
  exact (Path.mem_movesIn hname).2.1

theorem FileTree.resolve_eq_ok {t : FileTree} {path : Path} (h : t.resolve cwd p = .ok path) :
    path = (placeOf cwd p).path := by
  obtain ⟨⟨place, node⟩, hfind, h⟩ := Outcome.bind_eq_ok.1 h
  cases h
  rw [find_eq] at hfind
  obtain ⟨place', hplace, hfind⟩ := Outcome.bind_eq_ok.1 hfind
  obtain rfl := destination_eq_ok hplace
  split at hfind
  · cases hfind
  · split_ifs at hfind
    cases hfind
    rfl
  · cases hfind
    rfl

end Disk

theorem Path.filter_start? {p : Path} (h : p.isAbsolute = false) :
    p.start?.toList.filter (· != .current) = [] := by
  have hroot : p.start? ≠ some .root := fun hroot => by
    rw [isAbsolute_iff.2 hroot] at h
    cases h
  have hsplits := splits_splitHead p.text.toList
  rw [start?] at hroot ⊢
  generalize p.text.toList = cs at hroot hsplits ⊢
  generalize splitHead cs = split at hroot hsplits ⊢
  obtain ⟨head, body⟩ := split
  cases hsplits with
  | root => exact absurd rfl hroot
  | dot | dotSlash | plain => rfl

namespace Output

variable {t t' : FileTree} {cwd : Place} {root host embedded : Path} {rep : Representation}
  {force : Bool} {artifacts : List Artifact} {summary : Summary}

/-! ## Comparing the roots -/

/-- A root that leads to something, or one whose path has no step back. -/
def Plain (t : FileTree) (cwd : Place) (root : Path) : Prop :=
  (∃ path, t.resolve cwd root = .ok path) ∨ ".." ∉ root.moves

theorem components_of_relative (hrelative : root.isAbsolute = false) (hup : ".." ∉ root.moves) :
    root.components.filter (· != .current) = root.moves.map .normal := by
  rw [Path.components_eq, List.filter_append, Path.filter_start? hrelative,
    Path.map_ofMove.2 ⟨rfl, hup⟩, List.nil_append, List.filter_eq_self]
  intro component hcomponent
  obtain ⟨move, -, rfl⟩ := List.mem_map.1 hcomponent
  rfl

/-- A plain root is compared by the names of its place. -/
theorem on_comparable (hcwd : ∀ name ∈ cwd, IsName name) (hroot : Plain t cwd root)
    (htext : root.text ≠ "") :
    (comparable root).on cwd t = (.ok (.root :: (placeOf cwd root).map .normal), t) := by
  rw [comparable, Program.on_request_bind, FileTree.reply]
  -- A root that resolves is compared by its place; another one by its text, which names its place.
  cases hresolve : t.resolve cwd root with
  | ok path =>
    rw [FileTree.resolve_eq_ok hresolve, ← Place.components_path (isName_placeOf hcwd root)]
    rfl
  | error cause =>
    have hup : ".." ∉ root.moves := by
      rcases hroot with ⟨path, hpath⟩ | hup
      · rw [hresolve] at hpath
        cases hpath
      · exact hup
    rw [placeOf_of_names hcwd hup]
    cases habsolute : root.isAbsolute with
    | true =>
      have hcomponents : root.components = .root :: root.moves.map .normal := by
        rw [Path.components_eq, Path.isAbsolute_iff.1 habsolute, Path.map_ofMove.2 ⟨rfl, hup⟩]
        rfl
      dsimp only
      rw [Bool.or_true, if_pos rfl, hcomponents]
      rfl
    | false =>
      dsimp only
      rw [Bool.or_false, if_neg (by simpa using htext), Program.on_request_bind,
        FileTree.reply]
      dsimp only
      rw [Place.components_path hcwd, components_of_relative habsolute hup, if_neg (by decide),
        List.map_append]
      rfl

theorem on_comparable_of_empty (htext : root.text = "") :
    (comparable root).on cwd t = (.ok [], t) := by
  obtain rfl : root = ⟨""⟩ := by rw [← htext]
  have hresolve : t.resolve cwd ⟨""⟩ = .error .notFound := rfl
  rw [comparable, Program.on_request_bind, FileTree.reply, hresolve]
  rfl

/-- Neither place is the other or lies in it. -/
def Apart (place other : Place) : Prop := ¬place <+: other ∧ ¬other <+: place

theorem on_overlapping_eq_false
    (h : (overlapping host embedded).on cwd t = (.ok false, t')) :
    ∃ a b, (comparable host).on cwd t = (.ok a, t) ∧ (comparable embedded).on cwd t = (.ok b, t) ∧
      ¬a <+: b ∧ ¬b <+: a := by
  obtain ⟨a, ha, h⟩ := (question_comparable host).on_bind_ok h
  obtain ⟨b, hb, h⟩ := (question_comparable embedded).on_bind_ok h
  have hfalse : (a.isPrefixOf b || b.isPrefixOf a) = false :=
    Except.ok.inj (Prod.mk.inj h).1
  rw [Bool.or_eq_false_iff, ← Bool.not_eq_true, ← Bool.not_eq_true, List.isPrefixOf_iff_prefix,
    List.isPrefixOf_iff_prefix] at hfalse
  exact ⟨a, b, ha, hb, hfalse⟩

theorem text_of_overlapping (h : (overlapping host embedded).on cwd t = (.ok false, t')) :
    host.text ≠ "" ∧ embedded.text ≠ "" := by
  obtain ⟨a, b, ha, hb, hab, hba⟩ := on_overlapping_eq_false h
  constructor
  · intro htext
    rw [on_comparable_of_empty htext] at ha
    cases ha
    exact hab List.nil_prefix
  · intro htext
    rw [on_comparable_of_empty htext] at hb
    cases hb
    exact hba List.nil_prefix

/-- Plain roots that pass the comparison are apart. -/
theorem apart_of_overlapping (hcwd : ∀ name ∈ cwd, IsName name) (hhost : Plain t cwd host)
    (hembedded : Plain t cwd embedded)
    (h : (overlapping host embedded).on cwd t = (.ok false, t')) :
    Apart (placeOf cwd host) (placeOf cwd embedded) := by
  obtain ⟨a, b, ha, hb, hab, hba⟩ := on_overlapping_eq_false h
  obtain ⟨htext, htext'⟩ := text_of_overlapping h
  rw [on_comparable hcwd hhost htext] at ha
  rw [on_comparable hcwd hembedded htext'] at hb
  cases ha
  cases hb
  have hcomponents {place other : Place} (hbefore : place <+: other) :
      Component.root :: place.map .normal <+: Component.root :: other.map .normal :=
    List.cons_prefix_cons.2 ⟨rfl, hbefore.map _⟩
  exact ⟨fun hbefore => hab (hcomponents hbefore), fun hbefore => hba (hcomponents hbefore)⟩

/-! ## One tree -/

/-- The manifest in a directory is one of a representation, with the keys of its artifacts. -/
def Records (t : FileTree) (place : Place) (rep : Representation) (artifacts : List Artifact) :
    Prop :=
  ∃ manifest, t.manifest? place = some manifest ∧ manifest.representation = rep.name ∧
    ∀ key, key ∈ manifest.files.keys ↔
      ∃ a ∈ artifactsFor artifacts rep, Manifest.key? a.path = some key

theorem Records.congr {place : Place} (h : Records t place rep artifacts)
    (hlook : t'.look (place ++ [manifestFile]) = t.look (place ++ [manifestFile])) :
    Records t' place rep artifacts := by
  obtain ⟨manifest, hmanifest, hrest⟩ := h
  refine ⟨manifest, ?_, hrest⟩
  rw [← hmanifest, FileTree.manifest?, hlook]
  rfl

theorem mem_keys_of_keyed {items : List Keyed} {key : String} (h : keyed artifacts = .ok items) :
    (∃ k ∈ items, k.key = key) ↔ ∃ a ∈ artifacts, Manifest.key? a.path = some key := by
  have hkey : ∀ k ∈ items, Manifest.key? k.artifact.path = some k.key := key?_of_keyed h
  rw [← artifact_of_keyed h]
  constructor
  · intro hitem
    obtain ⟨k, hk, rfl⟩ := hitem
    exact ⟨k.artifact, List.mem_map_of_mem hk, hkey k hk⟩
  · intro hartifact
    obtain ⟨a, ha, hpath⟩ := hartifact
    obtain ⟨k, hk, rfl⟩ := List.mem_map.1 ha
    exact ⟨k, hk, Option.some.inj ((hkey k hk).symm.trans hpath)⟩

section OneTree

variable (h : (writeTree root force rep artifacts).on cwd t = (.ok summary, t'))

include h

/-- A run leaves its manifest in the root, and its path leads there. -/
theorem records_of_writeTree :
    Records t' (placeOf cwd root) rep artifacts ∧ Leads t' cwd root ∧
      (root.text ≠ "" → FileTree.Usable cwd root) := by
  obtain ⟨items, t₁, s, t₂, t₃, hkeyed, hmade, hwrite, -, hreplace, -⟩ :=
    on_writeAfter_eq_ok.1 (writeAfter_of_writeTree h)
  have hmanifest : s.manifest = manifestFor rep items := (progress_of_writeArtifacts hwrite).1
  rw [hmanifest] at hreplace
  have hlook : t'.look (placeOf cwd root ++ [manifestFile]) =
      some (.file (Text.utf8 (manifestFor rep items).render)) := by
    rw [← filesAt_eq_some, filesAt_replaceFile (below_manifestPath root) hreplace,
      Function.update_self]
  refine ⟨⟨manifestFor rep items, manifest?_of_look hlook, representation_record _ _, ?_⟩,
    leads_of_replaceFile (below_manifestPath root) (by simp) hreplace, ?_⟩
  · intro key
    rw [mem_keys_manifestFor, mem_keys_of_keyed hkeyed]
  · intro htext
    exact FileTree.usable_of_destination (of_makeDirectories htext hmade).1

theorem confined_of_writeTree (hkeys : KeysInside t (placeOf cwd root) rep) :
    FileTree.Confined (placeOf cwd root <+: ·) (Above cwd root) t t' := by
  have hconfined := (asks_writeAfter_earlier hkeys artifacts).on_confined t
  rwa [writeAfter_of_writeTree h] at hconfined

/-- What is there outside of the root stays as it is. -/
theorem look_of_writeTree (hkeys : KeysInside t (placeOf cwd root) rep) {place : Place}
    {item : Item} (hplace : ¬placeOf cwd root <+: place) (hlook : t.look place = some item) :
    t'.look place = some item := by
  rcases confined_of_writeTree h hkeys place hplace with heq | ⟨-, hnone, -⟩
  · rw [heq, hlook]
  · rw [hlook] at hnone
    cases hnone

/-- No manifest appears outside of the root. -/
theorem keysInside_of_writeTree (hkeys : KeysInside t (placeOf cwd root) rep) {place : Place}
    {other : Representation} (hplace : ¬placeOf cwd root <+: place ++ [manifestFile])
    (hother : KeysInside t place other) : KeysInside t' place other := by
  intro manifest hmanifest
  refine hother manifest ?_
  rw [← hmanifest, FileTree.manifest?, FileTree.manifest?]
  rcases confined_of_writeTree h hkeys _ hplace with heq | ⟨-, hnone, hmade⟩
  · rw [heq]
  · rw [hnone, hmade]

end OneTree

/-! ## Both trees -/

theorem on_writeTrees_eq_ok {summaries : Summary × Summary}
    (h : (writeTrees host embedded force artifacts).on cwd t = (.ok summaries, t')) :
    (overlapping host embedded).on cwd t = (.ok false, t) ∧
      ∃ t₁, (writeTree host force .host artifacts).on cwd t = (.ok summaries.1, t₁) ∧
        (writeTree embedded force .embedded artifacts).on cwd t₁ = (.ok summaries.2, t') := by
  obtain ⟨overlap, hoverlap, h⟩ := (question_overlapping host embedded).on_bind_ok h
  cases overlap with
  | true => cases h
  | false =>
    rw [if_neg (by decide)] at h
    obtain ⟨_, -, h⟩ := (question_prepare host force .host).on_bind_ok h
    obtain ⟨_, -, h⟩ := (question_prepare embedded force .embedded).on_bind_ok h
    obtain ⟨_, t₀, hkeyed, h⟩ := Program.on_bind_eq_ok.1 h
    rw [Program.on_ofExcept] at hkeyed
    obtain ⟨-, rfl⟩ := Prod.mk.inj hkeyed
    obtain ⟨first, t₁, hfirst, h⟩ := Program.on_bind_eq_ok.1 h
    obtain ⟨second, t₂, hsecond, h⟩ := Program.on_bind_eq_ok.1 h
    cases h
    exact ⟨hoverlap, t₁, hfirst, hsecond⟩

/-- Nothing of a tree lies in the other, its manifest included. -/
theorem Apart.not_isPrefix {place other : Place} (h : Apart place other) (rest : Place) :
    ¬other <+: place ++ rest := fun hbefore =>
  (List.prefix_or_prefix_of_prefix hbefore (List.prefix_append place rest)).elim h.2 h.1

/-- The path leads through nothing below a place. -/
def Avoids (cwd : Place) (p : Path) (place : Place) : Prop :=
  ∀ front rest, route cwd p = front ++ rest → place <+: Place.reach front →
    Place.reach front = place

/-- Two trees, each in a directory of its own and with its own manifest. -/
structure Unmixed (cwd : Place) (host embedded : Path) (artifacts : List Artifact)
    (t : FileTree) : Prop where
  apart : Apart (placeOf cwd host) (placeOf cwd embedded)
  hostDirectory : t.look (placeOf cwd host) = some .directory
  embeddedDirectory : t.look (placeOf cwd embedded) = some .directory
  hostRecords : Records t (placeOf cwd host) .host artifacts
  embeddedRecords : Records t (placeOf cwd embedded) .embedded artifacts
  /-- The path of the embedded root leads to its directory. -/
  embeddedLeads : t.destination cwd embedded = .ok (placeOf cwd embedded)
  /-- So does that of the host root, if it avoids the embedded tree. -/
  hostLeads : Avoids cwd host (placeOf cwd embedded) →
    t.destination cwd host = .ok (placeOf cwd host)

/-- Two runs into directories that are apart do not mix. -/
theorem unmixed_of_runs {t₁ : FileTree} {first second : Summary}
    (hapart : Apart (placeOf cwd host) (placeOf cwd embedded)) (hhostText : host.text ≠ "")
    (hembeddedText : embedded.text ≠ "") (hhost : KeysInside t (placeOf cwd host) .host)
    (hembedded : KeysInside t (placeOf cwd embedded) .embedded)
    (hfirst : (writeTree host force .host artifacts).on cwd t = (.ok first, t₁))
    (hsecond : (writeTree embedded force .embedded artifacts).on cwd t₁ = (.ok second, t')) :
    Unmixed cwd host embedded artifacts t' := by
  obtain ⟨hrecords, hleads, husable⟩ := records_of_writeTree hfirst
  obtain ⟨hrecords', hleads', husable'⟩ := records_of_writeTree hsecond
  have hkeys : KeysInside t₁ (placeOf cwd embedded) .embedded :=
    keysInside_of_writeTree hfirst hhost (Apart.not_isPrefix ⟨hapart.2, hapart.1⟩ _) hembedded
  have hmanifest : t'.look (placeOf cwd host ++ [manifestFile]) =
      t₁.look (placeOf cwd host ++ [manifestFile]) := by
    obtain ⟨manifest, hmanifest, -⟩ := hrecords
    cases hlook : t₁.look (placeOf cwd host ++ [manifestFile]) with
    | none =>
      rw [FileTree.manifest?, hlook] at hmanifest
      cases hmanifest
    | some item => exact look_of_writeTree hsecond hkeys (hapart.not_isPrefix _) hlook
  refine ⟨hapart, ?_, hleads'.directory, hrecords.congr hmanifest, hrecords',
    hleads'.destination (husable' hembeddedText), fun havoids => ?_⟩
  · exact look_of_writeTree hsecond hkeys hapart.2 hleads.directory
  · refine Leads.destination (fun front rest hsplit => ?_) (husable hhostText)
    by_cases hbelow : placeOf cwd embedded <+: Place.reach front
    · rw [havoids front rest hsplit hbelow]
      exact hleads'.directory
    · exact look_of_writeTree hsecond hkeys hbelow (hleads front rest hsplit)

/-- **The two trees do not mix.** On a disk without faults, two trees that have been written lie in
directories of their own, each with its own manifest. The manifests that were found list keys inside
of their roots, and both roots are plain, unless they are apart anyway. -/
theorem writeTrees_unmixed (m m' : Machine) (host embedded : Path) (force : Bool)
    (artifacts : List Artifact) (summaries : Summary × Summary) (hquiet : m.faults = [])
    (hcwd : ∀ name ∈ m.cwd, IsName name)
    (hhost : KeysInside m.tree (placeOf m.cwd host) .host)
    (hembedded : KeysInside m.tree (placeOf m.cwd embedded) .embedded)
    (hroots : Plain m.tree m.cwd host ∧ Plain m.tree m.cwd embedded ∨
      Apart (placeOf m.cwd host) (placeOf m.cwd embedded))
    (h : (writeTrees host embedded force artifacts).run m = (.ok summaries, m')) :
    Unmixed m.cwd host embedded artifacts m'.tree := by
  obtain ⟨hanswer, htree⟩ := Program.run_of_quiet (writeTrees host embedded force artifacts) hquiet
  rw [h] at hanswer htree
  obtain ⟨hoverlapping, t₁, hfirst, hsecond⟩ :=
    on_writeTrees_eq_ok (Prod.ext hanswer.symm htree.symm)
  have hapart : Apart (placeOf m.cwd host) (placeOf m.cwd embedded) := by
    rcases hroots with ⟨hplain, hplain'⟩ | hapart
    · exact apart_of_overlapping hcwd hplain hplain' hoverlapping
    · exact hapart
  obtain ⟨hhostText, hembeddedText⟩ := text_of_overlapping hoverlapping
  exact unmixed_of_runs hapart hhostText hembeddedText hhost hembedded hfirst hsecond

/-- A machine with an empty directory for a tree. -/
def furnished : Machine where
  tree := ⟨[("work", .directory [("h", .directory [])])]⟩
  cwd := ["work"]

/-- A root that is there, reached by a step back, and one that is not, without such a step. -/
theorem writeTrees_unmixed_furnished :
    ((writeTrees ⟨"../work/h"⟩ ⟨"new/./e"⟩ false mixed).run furnished).1 =
        .ok (⟨1, 0, []⟩, ⟨1, 0, []⟩) ∧
      Unmixed ["work"] ⟨"../work/h"⟩ ⟨"new/./e"⟩ mixed
        ((writeTrees ⟨"../work/h"⟩ ⟨"new/./e"⟩ false mixed).run furnished).2.tree := by
  have hhost : furnished.tree.manifest? (placeOf furnished.cwd ⟨"../work/h"⟩) = none := by decide
  have hembedded : furnished.tree.manifest? (placeOf furnished.cwd ⟨"new/./e"⟩) = none := by decide
  have hanswer : ((writeTrees ⟨"../work/h"⟩ ⟨"new/./e"⟩ false mixed).run furnished).1 =
      .ok (⟨1, 0, []⟩, ⟨1, 0, []⟩) := by decide +kernel
  generalize hrun : (writeTrees ⟨"../work/h"⟩ ⟨"new/./e"⟩ false mixed).run furnished = after
    at hanswer ⊢
  obtain ⟨answer, after⟩ := after
  obtain rfl := hanswer
  refine ⟨rfl, writeTrees_unmixed furnished after ⟨"../work/h"⟩ ⟨"new/./e"⟩ false mixed _ rfl
    (by decide) ?_ ?_ (.inl ⟨.inl ⟨⟨"/work/h"⟩, by decide⟩, .inr (by decide)⟩) hrun⟩
  · intro manifest hmanifest
    rw [hhost] at hmanifest
    cases hmanifest
  · intro manifest hmanifest
    rw [hembedded] at hmanifest
    cases hmanifest

/-- Two paths to one directory, which pass for different ones as long as there is no directory `x`
to step back from. The embedded tree is written over the host tree and its manifest. -/
theorem writeTrees_mixed :
    placeOf bare.cwd ⟨"x/../a"⟩ = placeOf bare.cwd ⟨"a"⟩ ∧
      ((writeTrees ⟨"a"⟩ ⟨"x/../a"⟩ false mixed).run bare).1 =
        .ok (⟨1, 0, []⟩, ⟨1, 0, []⟩) ∧
      ((writeTrees ⟨"a"⟩ ⟨"x/../a"⟩ false mixed).run bare).2.tree.look ["work", "a", "g"] =
        some (.file (Text.utf8 "2")) ∧
      ((writeTrees ⟨"a"⟩ ⟨"x/../a"⟩ false mixed).run bare).2.tree.look ["work", "a", "x"] =
        some (.file (Text.utf8 "3")) ∧
      ((writeTrees ⟨"a"⟩ ⟨"x/../a"⟩ false mixed).run bare).2.tree.look
          ["work", "a", manifestFile] =
        some (.file (Text.utf8
          (manifestFor .embedded [⟨"x", .embedded, ⟨"x"⟩, "3"⟩]).render)) := by
  decide +kernel

end Output

end WireSchema
