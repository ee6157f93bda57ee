import Mathlib.Data.Set.List
import WireSchema.Proofs.Disk.Spelling

/-!
# Canonical keys

A path has many spellings: slashes may be doubled, single dots may stand between them, and a slash
may follow. A manifest knows a file by one of them, its key, while the file itself is written under
the path as it was given.

**Theorem (`keys_canonical`).** Exactly the paths that consist of names have a key, those that end
with the name of the manifest excepted. The key is a spelling of the path and its own key, all
spellings of a path have one key, and no two paths share one. Joined to a root, every spelling leads
below the root, to the same place, and never to the manifest of the root.

The components of a path say all that matters: spellings are the paths with the same components
(`names?_of_same`), and what a path of names adds to a root are its names (`Path.components_join`,
`Path.Below.placeOf_eq`).
-/

namespace WireSchema

open Disk

theorem Component.normal_injective : Function.Injective Component.normal := by
  intro a b h
  exact Component.normal.inj h

namespace Path

variable {p q : Path} {names : List String}

/-- The paths of names, by their components. -/
theorem names?_iff_components : p.names? = some names ↔ p.components = names.map .normal := by
  rw [names?, mapM_normal]
  intro c name
  cases c <;> simp

theorem exists_names? : (∃ names, p.names? = some names) ↔
    ∀ c ∈ p.components, ∃ name, c = .normal name := by
  constructor
  · rintro ⟨names, h⟩ c hc
    rw [names?_iff_components.1 h] at hc
    obtain ⟨name, -, rfl⟩ := List.mem_map.1 hc
    exact ⟨name, rfl⟩
  · intro h
    have hrange : p.components ∈ Set.range (List.map Component.normal) := by
      rw [Set.range_list_map]
      intro c hc
      obtain ⟨name, rfl⟩ := h c hc
      exact ⟨name, rfl⟩
    obtain ⟨names, hnames⟩ := hrange
    exact ⟨names, names?_iff_components.2 hnames.symm⟩

theorem same_iff_components : p.same q = true ↔ p.components = q.components := by
  simp [same]

/-- Spellings of one path have the same names. -/
theorem names?_of_same (h : q.same p = true) (hp : p.names? = some names) :
    q.names? = some names := by
  rw [names?_iff_components] at hp ⊢
  rw [same_iff_components.1 h, hp]

/-! ## Spellings -/

/-- What follows a name in the text of a path, with the names that are still to come. -/
inductive Follows : List String → List Char → Prop
  | done : Follows [] []
  | slash : Follows [] ['/']
  | slashes {names : List String} {cs : List Char} (h : Follows names ('/' :: cs)) :
    Follows names ('/' :: '/' :: cs)
  | dot {names : List String} {cs : List Char} (h : Follows names cs) :
    Follows names ('/' :: '.' :: cs)
  | name {name : String} {names : List String} {cs : List Char} (hname : IsName name)
    (h : Follows names cs) : Follows (name :: names) ('/' :: (name.toList ++ cs))

/-- The texts of a path of names: they start with the first name. -/
inductive Spells : List String → List Char → Prop
  | start {name : String} {names : List String} {cs : List Char} (hname : IsName name)
    (h : Follows names cs) : Spells (name :: names) (name.toList ++ cs)

theorem isIdle_of_isName {name : String} (h : IsName name) : isIdle name.toList = false :=
  isIdle_toList h.1 h.2.1

theorem movesIn_of_isName {name : String} (h : IsName name) : movesIn name.toList = [name] := by
  simp [movesIn, parts_of_slash_not_mem h.2.2.2, isIdle_of_isName h]

namespace Follows

variable {cs : List Char}

theorem isName (h : Follows names cs) : ∀ name ∈ names, IsName name := by
  induction h with
  | done | slash => simp
  | slashes h ih | dot h ih => exact ih
  | name hname h ih => simpa using ⟨hname, ih⟩

/-- The names that follow are the moves behind the first part. -/
theorem movesIn_append (h : Follows names cs) (front : List Char) :
    movesIn (front ++ cs) = movesIn front ++ names := by
  induction h generalizing front with
  | done => simp
  | slash => rw [movesIn_append_slash, movesIn_nil]
  | slashes h ih =>
    have hrest := ih []
    rw [List.nil_append, movesIn_nil, List.nil_append] at hrest
    rw [movesIn_append_slash, hrest]
  | dot h ih =>
    have hrest := ih ['.']
    rw [movesIn_append_slash]
    exact congrArg (movesIn front ++ ·) hrest
  | name hname h ih => rw [movesIn_append_slash, ih, movesIn_of_isName hname, List.singleton_append]

/-- A name ends where what follows it starts. -/
theorem parts_append (h : Follows names cs) {front : List Char} (hfront : '/' ∉ front) :
    ∃ rest, parts (front ++ cs) = front :: rest := by
  have hslash (ds : List Char) : ∃ rest, parts (front ++ '/' :: ds) = front :: rest :=
    ⟨parts ds, by rw [parts_append_slash, parts_of_slash_not_mem hfront, List.singleton_append]⟩
  cases h with
  | done => exact ⟨[], by rw [List.append_nil, parts_of_slash_not_mem hfront]⟩
  | slash | slashes | dot | name => exact hslash _

/-- Parts with a slash before each of them are what can follow a name. -/
theorem of_parts {ps : List (List Char)} (hne : ps ≠ []) (hslash : ∀ part ∈ ps, '/' ∉ part)
    (hup : ".." ∉ (ps.filter (!isIdle ·)).map String.ofList) :
    Follows ((ps.filter (!isIdle ·)).map String.ofList) ('/' :: joinParts ps) := by
  induction ps with
  | nil => exact absurd rfl hne
  | cons part ps ih =>
    -- What the parts behind this one give, in front of which it is put.
    have hrest : Follows ((ps.filter (!isIdle ·)).map String.ofList)
        (if ps = [] then [] else '/' :: joinParts ps) := by
      by_cases hps : ps = []
      · rw [if_pos hps, hps]
        exact .done
      · rw [if_neg hps]
        refine ih hps (fun part hpart => hslash part (List.mem_cons_of_mem _ hpart)) fun h => hup ?_
        rw [List.filter_cons]
        split
        · exact List.mem_cons_of_mem _ h
        · exact h
    have hjoin : joinParts (part :: ps) = part ++ if ps = [] then [] else '/' :: joinParts ps := by
      by_cases hps : ps = []
      · simp [hps, joinParts]
      · rw [if_neg hps, joinParts_cons hps]
    rw [hjoin]
    by_cases hidle : isIdle part = true
    · rw [List.filter_cons_of_neg (by simp [hidle])]
      simp only [isIdle, Bool.or_eq_true, List.isEmpty_iff, beq_iff_eq] at hidle
      rcases hidle with rfl | rfl
      · by_cases hps : ps = []
        · rw [if_pos hps, hps]
          exact .slash
        · rw [if_neg hps] at hrest ⊢
          exact .slashes hrest
      · exact .dot hrest
    · have hkeep : (part :: ps).filter (!isIdle ·) = part :: ps.filter (!isIdle ·) :=
        List.filter_cons_of_pos (by simpa using hidle)
      rw [hkeep, List.map_cons] at hup ⊢
      have hmem : String.ofList part ∈ movesIn part := by
        rw [movesIn, parts_of_slash_not_mem (hslash part List.mem_cons_self)]
        simp [hidle]
      obtain ⟨hempty, hdot, hpart⟩ := mem_movesIn hmem
      have hname : IsName (String.ofList part) :=
        ⟨hempty, hdot, fun h => hup (h ▸ List.mem_cons_self), hpart⟩
      have hfollows := Follows.name hname hrest
      rwa [String.toList_ofList] at hfollows

end Follows

/-- Exactly the spellings of names are paths of names. -/
theorem spells_iff : Spells names p.text.toList ↔ p.names? = some names ∧ names ≠ [] := by
  constructor
  · intro h
    generalize htext : p.text.toList = text at h
    obtain ⟨hname, hfollows⟩ := h
    rename_i name rest cs
    obtain ⟨behind, hparts⟩ := hfollows.parts_append hname.2.2.2
    have hmoves : p.moves = name :: rest := by
      rw [moves, htext, hfollows.movesIn_append, movesIn_of_isName hname, List.singleton_append]
    refine ⟨names?_eq_some_iff.2 ⟨?_, hmoves, ?_⟩, List.cons_ne_nil _ _⟩
    · exact start?_eq_none (htext ▸ hparts) (isIdle_of_isName hname)
    · rw [hmoves, List.mem_cons, not_or]
      exact ⟨fun h => hname.2.2.1 h.symm, fun h => (hfollows.isName _ h).2.2.1 rfl⟩
  · rintro ⟨hp, hne⟩
    obtain ⟨hstart, hmoves, hup⟩ := names?_eq_some_iff.1 hp
    -- Behind a slash the whole text could follow a name; only one of the ways is free of a head.
    have hfollows := Follows.of_parts (parts_ne_nil p.text.toList)
      (fun part hpart => slash_not_mem_of_mem_parts hpart) hup
    rw [joinParts_parts, ← movesIn, ← moves, hmoves] at hfollows
    rw [start?] at hstart
    generalize p.text.toList = text at hstart hfollows
    cases hfollows with
    | slash => exact absurd rfl hne
    | slashes h => simp [splitHead] at hstart
    | dot h => cases h <;> simp [splitHead] at hstart
    | name hname h => exact .start hname h

end Path

namespace Output.Manifest

variable {p q root : Path} {names : List String} {key : String}

/-! ## Which paths have a key -/

theorem key?_iff : key? p = some key ↔ ∃ names, p.names? = some names ∧ names ≠ [] ∧
    names.getLast? ≠ some manifestFile ∧ key = joinNames names := by
  constructor
  · intro h
    obtain ⟨names, hnames, -, hne, hlast, rfl⟩ := key?_eq_some h
    exact ⟨names, hnames, hne, hlast, rfl⟩
  · rintro ⟨names, hnames, hne, hlast, rfl⟩
    unfold key?
    rw [hnames]
    cases names with
    | nil => exact absurd rfl hne
    | cons name names => simp [hlast]

/-- Which texts have a key. -/
theorem key?_iff_spells : key? p = some key ↔ ∃ names, Path.Spells names p.text.toList ∧
    names.getLast? ≠ some manifestFile ∧ key = joinNames names := by
  simp only [key?_iff, Path.spells_iff, and_assoc]

theorem getLast?_normal (names : List String) (name : String) :
    (names.map Component.normal).getLast? = some (.normal name) ↔ names.getLast? = some name := by
  simp [List.getLast?_map]

theorem isSome_key?_iff : (key? p).isSome = true ↔ p.components ≠ [] ∧
    (∀ c ∈ p.components, ∃ name, c = .normal name) ∧
    p.components.getLast? ≠ some (.normal manifestFile) := by
  rw [Option.isSome_iff_exists, ← Path.exists_names?]
  constructor
  · rintro ⟨key, h⟩
    obtain ⟨names, hnames, hne, hlast, -⟩ := key?_iff.1 h
    rw [Path.names?_iff_components.1 hnames, Ne, List.map_eq_nil_iff, Ne, getLast?_normal]
    exact ⟨hne, ⟨names, hnames⟩, hlast⟩
  · rintro ⟨hne, ⟨names, hnames⟩, hlast⟩
    rw [Path.names?_iff_components.1 hnames, Ne, List.map_eq_nil_iff] at hne
    rw [Path.names?_iff_components.1 hnames, Ne, getLast?_normal] at hlast
    exact ⟨_, key?_iff.2 ⟨names, hnames, hne, hlast, rfl⟩⟩

/-! ## Keys and spellings -/

/-- The names are read off the key again, so that the key tells the path. -/
theorem joinNames_inj_of_names? {names' : List String} (hp : p.names? = some names)
    (hq : q.names? = some names') (hne : names ≠ []) (hne' : names' ≠ []) :
    joinNames names' = joinNames names ↔ q.same p = true := by
  rw [Path.same_iff_components, Path.names?_iff_components.1 hp, Path.names?_iff_components.1 hq]
  constructor
  · intro h
    have hread := Path.names?_joinNames hq hne'
    rw [h, Path.names?_joinNames hp hne] at hread
    rw [Option.some.inj hread]
  · intro h
    rw [List.map_injective_iff.2 Component.normal_injective h]

/-! ## Below a root -/

/-- What a path of names leads to lies below the root and is not the manifest. -/
theorem placeOf_join (hq : q.names? = some names) (hnames : names ≠ [manifestFile]) (cwd : Place)
    (root : Path) : placeOf cwd (root.join q) = placeOf cwd root ++ names ∧
      placeOf cwd (root.join q) ≠ placeOf cwd (path root) := by
  have hbelow : (root.join q).Below root names := Path.below_join hq
  have hmanifest : (path root).Below root [manifestFile] := Path.below_join names?_manifestFile
  refine ⟨hbelow.placeOf_eq cwd, ?_⟩
  rw [hbelow.placeOf_eq, hmanifest.placeOf_eq]
  intro h
  exact hnames (List.append_cancel_left h)

theorem join_same_path (hq : q.names? = some names) (hnames : names ≠ [manifestFile])
    (root : Path) : (root.join q).same (path root) = false := by
  rw [← Bool.not_eq_true, Path.same_iff_components, path, Path.components_join hq,
    Path.components_join names?_manifestFile]
  intro h
  exact hnames (List.map_injective_iff.2 Component.normal_injective (List.append_cancel_left h))

/-! ## Keys -/

/-- What there is to a key: the path consists of `names` and is known as `key`. -/
structure KeyOf (p : Path) (names : List String) (key : String) : Prop where
  components : p.components = names.map .normal
  nonempty : names ≠ []
  text : key = "/".intercalate names
  /-- A key is its own key. -/
  fixed : key? ⟨key⟩ = some key
  /-- The key is a spelling of the path. -/
  same : (⟨key⟩ : Path).same p = true
  /-- Spellings of the path have the key, and no other paths do. -/
  shared : ∀ q other, key? q = some other → (other = key ↔ q.same p = true)
  /-- Joined to a root, a spelling goes on from it by the names, and is not its manifest. -/
  joined : ∀ root q : Path, q.same p = true →
    (root.join q).components = root.components ++ names.map .normal ∧
      (root.join q).same (path root) = false
  /-- The place that the text of the joined path names. -/
  placed : ∀ (cwd : Place) (root q : Path), q.same p = true →
    placeOf cwd (root.join q) = placeOf cwd root ++ names ∧
      placeOf cwd (root.join q) ≠ placeOf cwd (path root)
  /-- The place that the joined path leads to in a file system. -/
  located : ∀ (t : FileTree) (cwd : Place) (root q : Path) (target : FileTree.Target),
    q.same p = true → t.locate cwd (root.join q) = .ok target →
      (∀ above, t.locate cwd root = .ok above → target.place = above.place ++ names) ∧
      ∀ other, t.locate cwd (path root) = .ok other → target.place ≠ other.place

theorem keyOf_of_key? (h : key? p = some key) : ∃ names, KeyOf p names key := by
  obtain ⟨names, hp, hne, hlast, rfl⟩ := key?_iff.1 h
  have hkey : (⟨joinNames names⟩ : Path).names? = some names := Path.names?_joinNames hp hne
  have hnames : names ≠ [manifestFile] := by
    rintro rfl
    exact hlast rfl
  refine ⟨names, Path.names?_iff_components.1 hp, hne, rfl, ?_, ?_, ?_, ?_, ?_, ?_⟩
  · exact key?_iff.2 ⟨names, hkey, hne, hlast, rfl⟩
  · rw [Path.same_iff_components, Path.names?_iff_components.1 hkey,
      Path.names?_iff_components.1 hp]
  · intro q other hother
    obtain ⟨names', hq, hne', -, rfl⟩ := key?_iff.1 hother
    exact joinNames_inj_of_names? hp hq hne hne'
  · intro root q hsame
    have hq := Path.names?_of_same hsame hp
    exact ⟨Path.components_join hq, join_same_path hq hnames root⟩
  · intro cwd root q hsame
    exact placeOf_join (Path.names?_of_same hsame hp) hnames cwd root
  · intro t cwd root q target hsame htarget
    obtain ⟨hplace, hother⟩ := placeOf_join (Path.names?_of_same hsame hp) hnames cwd root
    obtain ⟨-, rfl⟩ := FileTree.locate_eq_ok htarget
    constructor
    · intro above habove
      obtain ⟨-, rfl⟩ := FileTree.locate_eq_ok habove
      exact hplace
    · intro other hlocate
      obtain ⟨-, rfl⟩ := FileTree.locate_eq_ok hlocate
      exact hother

/-- **Keys are canonical.** Paths of names have a key, but for those that end with the name of the
manifest; it stands for all spellings of the path and for nothing else. -/
theorem keys_canonical (p : Path) :
    ((key? p).isSome = true ↔ p.components ≠ [] ∧
      (∀ c ∈ p.components, ∃ name, c = .normal name) ∧
      p.components.getLast? ≠ some (.normal manifestFile)) ∧
    ∀ key, (key? p = some key ↔ ∃ names, Path.Spells names p.text.toList ∧
        names.getLast? ≠ some manifestFile ∧ key = "/".intercalate names) ∧
      (key? p = some key → ∃ names, KeyOf p names key) :=
  ⟨isSome_key?_iff, fun _ => ⟨key?_iff_spells, keyOf_of_key?⟩⟩

/-- Doubled slashes, an inner dot and a slash at the end. -/
theorem keys_canonical_respelled :
    key? ⟨"a//./b/"⟩ = some "a/b" ∧ ∃ names, KeyOf ⟨"a//./b/"⟩ names "a/b" :=
  ⟨by decide, ((keys_canonical ⟨"a//./b/"⟩).2 "a/b").2 (by decide)⟩

end Output.Manifest

end WireSchema
