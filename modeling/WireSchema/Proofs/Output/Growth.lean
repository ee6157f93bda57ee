import Mathlib.Logic.Function.Basic
import WireSchema.Proofs.Output.Preparation

/-!
# Trees that are grown from nothing

Below a root that was empty there is nothing but the files that were written and the directories
that they need, apart from a directory that has just been made for a file or has just lost one. So
such a tree is described by its files and by the way to that directory (`Grown`), and two trees with
the same description are the same at every place (`Grown.look_eq`).

A root whose path does not lead through its own tree leads to its place in every grown tree, and a
path below it leads on as far as there are directories (`Rooted.destination_eq_ok`,
`Rooted.destination_eq_notFound`).
-/

namespace WireSchema.Output

open Disk

/-- The bytes of each file of a tree, by its place below the root. -/
abbrev Files := Place → Option (List UInt8)

/-- A directory on the way to some place or to some file. -/
def Needed (files : Files) (way rel : Place) : Prop :=
  rel <+: way ∨ ∃ key, files key ≠ none ∧ rel <+: key

theorem Needed.mono {files : Files} {way rel rel' : Place} (h : Needed files way rel)
    (hrel : rel' <+: rel) : Needed files way rel' :=
  h.imp hrel.trans fun ⟨key, hkey, hbefore⟩ => ⟨key, hkey, hrel.trans hbefore⟩

/-- In the tree `t`, the directory at `place` consists of `files`, of the directories that they need
and of those on the way to `way`. Elsewhere the tree is `base`. -/
structure Grown (base : FileTree) (place : Place) (files : Files) (way : Place) (t : FileTree) :
    Prop where
  top : files [] = none
  file : ∀ rel bytes, t.look (place ++ rel) = some (.file bytes) ↔ files rel = some bytes
  directory : ∀ rel, t.look (place ++ rel) = some .directory ↔
    files rel = none ∧ Needed files way rel
  outside : ∀ other, ¬place <+: other → t.look other = base.look other

namespace Grown

variable {base t t' : FileTree} {place way names : Place} {files : Files} {bytes : List UInt8}

/-- Files and way say what lies where. -/
theorem look_eq (h : Grown base place files way t) (h' : Grown base place files way t')
    (other : Place) : t.look other = t'.look other := by
  by_cases hother : place <+: other
  · obtain ⟨rel, rfl⟩ := hother
    have hfile (bytes : List UInt8) : t.look (place ++ rel) = some (.file bytes) ↔
        t'.look (place ++ rel) = some (.file bytes) :=
      (h.file rel bytes).trans (h'.file rel bytes).symm
    have hdirectory : t.look (place ++ rel) = some .directory ↔
        t'.look (place ++ rel) = some .directory := (h.directory rel).trans (h'.directory rel).symm
    cases hlook : t.look (place ++ rel) with
    | none =>
      cases hlook' : t'.look (place ++ rel) with
      | none => rfl
      | some item =>
        rw [hlook, hlook'] at hdirectory
        cases item with
        | directory => exact hdirectory.2 rfl
        | file bytes => exact hlook.symm.trans ((hfile bytes).2 hlook')
    | some item =>
      cases item with
      | directory => exact (hdirectory.1 hlook).symm
      | file bytes => exact ((hfile bytes).1 hlook).symm
  · rw [h.outside other hother, h'.outside other hother]

theorem look_place (h : Grown base place files way t) : t.look place = some .directory := by
  have hlook := (h.directory []).2 ⟨h.top, .inl List.nil_prefix⟩
  rwa [List.append_nil] at hlook

/-- No file lies below another one. -/
theorem eq_of_isPrefix (h : Grown base place files way t) {key key' : Place}
    (hkey : files key ≠ none) (hkey' : files key' ≠ none) (hbefore : key <+: key') :
    key = key' := by
  obtain ⟨bytes, hbytes⟩ := Option.ne_none_iff_exists'.1 hkey
  obtain ⟨bytes', hbytes'⟩ := Option.ne_none_iff_exists'.1 hkey'
  obtain ⟨rest, rfl⟩ := hbefore
  have hlook := (h.file key bytes).2 hbytes
  have hbelow := (h.file _ bytes').2 hbytes'
  by_cases hrest : rest = []
  · rw [hrest, List.append_nil]
  · rw [← List.append_assoc, FileTree.look_append_of_file hlook hrest] at hbelow
    cases hbelow

/-- Other files and another way that say the same. -/
theorem congr (h : Grown base place files way t) {way' : Place}
    (hneeded : ∀ rel, Needed files way' rel ↔ Needed files way rel) :
    Grown base place files way' t where
  top := h.top
  file := h.file
  directory rel := by rw [h.directory, hneeded]
  outside := h.outside

theorem outside_of_sets (h : Grown base place files way t) {item : Option Item}
    (hsets : FileTree.Sets t t' (place ++ names) item) (other : Place) (hother : ¬place <+: other) :
    t'.look other = base.look other := by
  rw [hsets, if_neg, h.outside other hother]
  rintro rfl
  exact hother (List.prefix_append _ _)

/-- A strict beginning of a list is a beginning of the list without its end. -/
theorem isPrefix_dropLast {rel : Place} (h : rel <+: names) (hne : rel ≠ names) :
    rel <+: names.dropLast := by
  obtain ⟨rest, rfl⟩ := h
  have hrest : rest ≠ [] := by
    rintro rfl
    exact hne (List.append_nil rel).symm
  rw [List.dropLast_append_of_ne_nil hrest]
  exact List.prefix_append _ _

theorem not_isPrefix_concat (front : Place) (last : String) : ¬front ++ [last] <+: front := by
  intro h
  have hlength := h.length_le
  rw [List.length_append, List.length_singleton] at hlength
  omega

/-- A directory on the way that was there already. -/
theorem extend (h : Grown base place files way t) (hway : way <+: names)
    (hlook : t.look (place ++ names) = some .directory) : Grown base place files names t := by
  refine h.congr fun rel => ⟨?_, ?_⟩
  · rintro (hrel | hkey)
    · exact ((h.directory names).1 hlook).2.mono hrel
    · exact .inr hkey
  · rintro (hrel | hkey)
    · exact .inl (hrel.trans hway)
    · exact .inr hkey

/-- A directory is made where there was nothing. -/
theorem make (h : Grown base place files way t) (hway : way <+: names)
    (hparent : t.look (place ++ names.dropLast) = some .directory)
    (hnone : t.look (place ++ names) = none)
    (hsets : FileTree.Sets t t' (place ++ names) (some .directory)) :
    Grown base place files names t' := by
  have hfiles : files names = none := by
    by_contra hsome
    obtain ⟨bytes, hbytes⟩ := Option.ne_none_iff_exists'.1 hsome
    rw [(h.file names bytes).2 hbytes] at hnone
    cases hnone
  refine ⟨h.top, fun rel bytes => ?_, fun rel => ?_, h.outside_of_sets hsets⟩
  · rw [hsets]
    by_cases hrel : rel = names
    · simp [hrel, hfiles]
    · rw [if_neg (by simpa using hrel), h.file]
  · rw [hsets]
    by_cases hrel : rel = names
    · rw [if_pos (by rw [hrel]), hrel]
      simp [hfiles, Needed]
    · rw [if_neg (by simpa using hrel), h.directory]
      refine and_congr_right fun _ => ⟨?_, ?_⟩
      · rintro (hbefore | hkey)
        · exact .inl (hbefore.trans hway)
        · exact .inr hkey
      · rintro (hbefore | hkey)
        · exact ((h.directory _).1 hparent).2.mono (isPrefix_dropLast hbefore hrel)
        · exact .inr hkey

/-- A file is put into the directory that was made for it. -/
theorem put (h : Grown base place files names.dropLast t) (hne : names ≠ [])
    (hsets : FileTree.Sets t t' (place ++ names) (some (.file bytes))) :
    Grown base place (Function.update files names (some bytes)) [] t' := by
  -- The way that was made for the file is now needed for the file.
  have hneeded : ∀ rel, rel ≠ names →
      (Needed (Function.update files names (some bytes)) [] rel ↔
        Needed files names.dropLast rel) := by
    intro rel hrel
    constructor
    · rintro (hnil | ⟨key, hkey, hbefore⟩)
      · exact .inl (hnil.trans List.nil_prefix)
      · by_cases heq : key = names
        · exact .inl (isPrefix_dropLast (heq ▸ hbefore) hrel)
        · rw [Function.update_of_ne heq] at hkey
          exact .inr ⟨key, hkey, hbefore⟩
    · rintro (hbefore | ⟨key, hkey, hbefore⟩)
      · exact .inr ⟨names, by simp, hbefore.trans (List.dropLast_prefix names)⟩
      · refine .inr ⟨key, ?_, hbefore⟩
        by_cases heq : key = names
        · simp [heq]
        · rwa [Function.update_of_ne heq]
  refine ⟨by rw [Function.update_of_ne hne.symm, h.top], fun rel found => ?_, fun rel => ?_,
    h.outside_of_sets hsets⟩
  · rw [hsets]
    by_cases hrel : rel = names
    · simp [hrel]
    · rw [if_neg (by simpa using hrel), h.file, Function.update_of_ne hrel]
  · rw [hsets]
    by_cases hrel : rel = names
    · simp [hrel]
    · rw [if_neg (by simpa using hrel), h.directory, Function.update_of_ne hrel, hneeded rel hrel]

/-- A file is taken away. -/
theorem take (h : Grown base place files [] t) (hne : names ≠ [])
    (hlook : t.look (place ++ names) = some (.file bytes))
    (hsets : FileTree.Sets t t' (place ++ names) none) :
    Grown base place (Function.update files names none) names.dropLast t' := by
  have hfile := (h.file names bytes).1 hlook
  refine ⟨by rw [Function.update_of_ne hne.symm, h.top], fun rel found => ?_, fun rel => ?_,
    h.outside_of_sets hsets⟩
  · rw [hsets]
    by_cases hrel : rel = names
    · simp [hrel]
    · rw [if_neg (by simpa using hrel), h.file, Function.update_of_ne hrel]
  · rw [hsets]
    by_cases hrel : rel = names
    · -- Nothing lies below a file, so that nothing needs its place.
      rw [if_pos (by rw [hrel]), hrel]
      refine ⟨(nofun), fun ⟨_, hneeded⟩ => ?_⟩
      exfalso
      rcases hneeded with hbefore | ⟨key, hkey, hbefore⟩
      · have hlength := hbefore.length_le
        have hpositive := List.length_pos_iff.2 hne
        rw [List.length_dropLast] at hlength
        omega
      · have heq : key ≠ names := by
          rintro rfl
          simp at hkey
        rw [Function.update_of_ne heq] at hkey
        obtain ⟨found, hfound⟩ := Option.ne_none_iff_exists'.1 hkey
        obtain ⟨rest, rfl⟩ := hbefore
        have hbelow := (h.file _ found).2 hfound
        rw [← List.append_assoc, FileTree.look_append_of_file hlook] at hbelow
        · cases hbelow
        · rintro rfl
          exact heq (List.append_nil names)
    · rw [if_neg (by simpa using hrel), h.directory, Function.update_of_ne hrel]
      refine and_congr_right fun _ => ⟨?_, ?_⟩
      · rintro (hnil | ⟨key, hkey, hbefore⟩)
        · exact .inl (hnil.trans List.nil_prefix)
        · by_cases heq : key = names
          · exact .inl (isPrefix_dropLast (heq ▸ hbefore) hrel)
          · exact .inr ⟨key, by rwa [Function.update_of_ne heq], hbefore⟩
      · rintro (hbefore | ⟨key, hkey, hbefore⟩)
        · exact .inr ⟨names, by simp [hfile], hbefore.trans (List.dropLast_prefix names)⟩
        · have heq : key ≠ names := by
            rintro rfl
            simp at hkey
          rw [Function.update_of_ne heq] at hkey
          exact .inr ⟨key, hkey, hbefore⟩

/-- An empty directory at the end of the way is removed. -/
theorem shrink (h : Grown base place files way t) (hne : way ≠ [])
    (hlook : t.look (place ++ way) = some .directory)
    (hempty : ∀ rest, rest ≠ [] → t.look (place ++ way ++ rest) = none)
    (hsets : FileTree.Sets t t' (place ++ way) none) :
    Grown base place files way.dropLast t' := by
  have hfiles : files way = none := ((h.directory way).1 hlook).1
  refine ⟨h.top, fun rel found => ?_, fun rel => ?_, h.outside_of_sets hsets⟩
  · rw [hsets]
    by_cases hrel : rel = way
    · simp [hrel, hfiles]
    · rw [if_neg (by simpa using hrel), h.file]
  · rw [hsets]
    by_cases hrel : rel = way
    · rw [if_pos (by rw [hrel]), hrel]
      -- The directory is not needed: it is not on the shorter way, and no file lies below it.
      refine ⟨(nofun), fun ⟨_, hneeded⟩ => ?_⟩
      exfalso
      rcases hneeded with hbefore | ⟨key, hkey, hbefore⟩
      · have hlength := hbefore.length_le
        have hpositive := List.length_pos_iff.2 hne
        rw [List.length_dropLast] at hlength
        omega
      · obtain ⟨found, hfound⟩ := Option.ne_none_iff_exists'.1 hkey
        obtain ⟨rest, rfl⟩ := hbefore
        have hbelow := (h.file _ found).2 hfound
        rw [← List.append_assoc, hempty rest] at hbelow
        · cases hbelow
        · rintro rfl
          rw [List.append_nil] at hkey
          exact hkey hfiles
    · rw [if_neg (by simpa using hrel), h.directory]
      exact and_congr_right fun _ => or_congr ⟨fun hbefore => isPrefix_dropLast hbefore hrel,
        fun hbefore => hbefore.trans (List.dropLast_prefix way)⟩ Iff.rfl

/-- A way with something at its end that is not empty is the way to a file. -/
theorem settle (h : Grown base place files way t) {rest : Place} (hrest : rest ≠ [])
    (hsome : t.look (place ++ way ++ rest) ≠ none) : Grown base place files [] t := by
  -- Whatever lies below the way is a file or the way to one.
  obtain ⟨key, hkey, hbefore⟩ : ∃ key, files key ≠ none ∧ way <+: key := by
    obtain ⟨item, hitem⟩ := Option.ne_none_iff_exists'.1 hsome
    rw [List.append_assoc] at hitem
    cases item with
    | file bytes =>
      exact ⟨way ++ rest, by simp [(h.file _ bytes).1 hitem], List.prefix_append _ _⟩
    | directory =>
      rcases ((h.directory _).1 hitem).2 with hbelow | ⟨key, hkey, hbefore⟩
      · have hlength := hbelow.length_le
        have hpositive := List.length_pos_iff.2 hrest
        rw [List.length_append] at hlength
        omega
      · exact ⟨key, hkey, (List.prefix_append _ _).trans hbefore⟩
  refine h.congr fun rel => ⟨?_, ?_⟩
  · rintro (hnil | hkey)
    · exact .inl (hnil.trans List.nil_prefix)
    · exact .inr hkey
  · rintro (hrel | hkey')
    · exact .inr ⟨key, hkey, hrel.trans hbefore⟩
    · exact .inr hkey'

end Grown

/-! ## Paths in a grown tree -/

/-- A root that can grow: its path leads to its place, and not through its own tree. -/
structure Rooted (base : FileTree) (cwd : Place) (root : Path) : Prop where
  leads : base.destination cwd root = .ok (placeOf cwd root)
  outward : Outward cwd root

variable {base t t' : FileTree} {cwd : Place} {root p : Path} {files : Files}
  {way names : Place}

theorem route_below (h : p.Below root names) (cwd : Place) :
    route cwd p = route cwd root ++ names := by
  have habsolute : p.isAbsolute = root.isAbsolute := by
    rw [Bool.eq_iff_iff, Path.isAbsolute_iff, Path.isAbsolute_iff, h.start]
  rw [route_eq, route_eq, habsolute, h.moves, List.append_assoc]

theorem reach_below (h : p.Below root names) (cwd : Place) {front : Place}
    (hfront : front <+: names) :
    Place.reach (route cwd root ++ front) = placeOf cwd root ++ front := by
  rw [Place.reach_append, reach_route]
  exact Place.foldl_turn_names (fun name hname => h.names name (hfront.mem hname)) _

/-- A path that goes on from the root passes the way to the root and then what is below it. -/
theorem reach_of_trek (h : p.Below root names) {front back : List String} {part : String}
    (hsplit : trek cwd p = front ++ part :: back) :
    (∃ rest, route cwd root = front.filter (· ≠ ".") ++ rest) ∨
      ∃ rel, rel <+: names ∧ Place.reach front = placeOf cwd root ++ rel ∧
        (rel = names → (trek cwd p).getLast? = some ".") := by
  have hroute : route cwd root ++ names =
      front.filter (· ≠ ".") ++ (part :: back).filter (· ≠ ".") := by
    rw [← route_below h, route, hsplit, List.filter_append]
  rcases List.append_eq_append_iff.1 hroute with ⟨rel, hfront, hnames⟩ | ⟨rest, hrest, -⟩
  · refine .inr ⟨rel, ⟨_, hnames.symm⟩, ?_, ?_⟩
    · rw [← Place.reach_filter, hfront, reach_below h cwd ⟨_, hnames.symm⟩]
    · rintro rfl
      -- What is left of the path leads nowhere.
      have hnil : (part :: back).filter (· ≠ ".") = [] := by simpa using hnames
      rcases List.eq_nil_or_concat' (part :: back) with heq | ⟨more, last, heq⟩
      · cases heq
      · rw [heq, List.filter_eq_nil_iff] at hnil
        have hlast := hnil last (by simp)
        rw [hsplit, heq, ← List.append_assoc, List.getLast?_concat]
        simpa using hlast
  · exact .inl ⟨rest, hrest⟩

/-- A path that leads somewhere passes directories as long as it goes on. -/
theorem look_of_passed {place : Place} (h : t.destination cwd p = .ok place)
    {front rest : List String} (hsplit : route cwd p = front ++ rest) (hne : rest ≠ []) :
    t.look (Place.reach front) = some .directory := by
  obtain ⟨-, -, hpass⟩ := FileTree.destination_eq_ok_iff.1 h
  obtain ⟨first, second, htrek, hfirst, hsecond⟩ := List.filter_eq_append_iff.1 hsplit
  rw [← hfirst, Place.reach_filter]
  cases second with
  | nil => exact absurd hsecond.symm hne
  | cons part back => exact (hpass first part back htrek).1

theorem look_of_destination {place : Place} (h : t.destination cwd p = .ok place)
    {front rest : List String} (hsplit : route cwd p = front ++ rest) :
    t.look (Place.reach front) = some .directory ∨ Place.reach front = placeOf cwd p := by
  by_cases hne : rest = []
  · rw [hne, List.append_nil] at hsplit
    rw [← hsplit, reach_route]
    exact .inr rfl
  · exact .inl (look_of_passed h hsplit hne)

/-- All directories on the way to the root are there, and the root is one as well. -/
def Leads (t : FileTree) (cwd : Place) (root : Path) : Prop :=
  ∀ front rest, route cwd root = front ++ rest → t.look (Place.reach front) = some .directory

theorem leads_of_destination {place : Place} (h : t.destination cwd root = .ok place)
    (hlook : t.look (placeOf cwd root) = some .directory) : Leads t cwd root := by
  intro front rest hsplit
  rcases look_of_destination h hsplit with hdirectory | heq
  · exact hdirectory
  · rw [heq]
    exact hlook

theorem Leads.directory (h : Leads t cwd root) : t.look (placeOf cwd root) = some .directory := by
  rw [← reach_route]
  exact h _ [] (List.append_nil _).symm

theorem getLast?_trek (h : p.Tidy) (hne : p.moves ≠ []) : (trek cwd p).getLast? ≠ some "." := by
  have hlast := h.resolve_left hne
  have hparts : FileTree.partsOf p ≠ [] := by
    intro hnil
    rw [← partsOf_filter, hnil] at hne
    exact hne rfl
  rwa [trek, List.getLast?_append_of_ne_nil _ hparts]

/-- A usable path below the root leads to its place, if there are directories on the way. -/
theorem Leads.destination_eq_ok (h : Leads t cwd root) (hbelow : p.Below root names)
    (husable : FileTree.Usable cwd p)
    (hway : ∀ rel, rel <+: names → rel ≠ names →
      t.look (placeOf cwd root ++ rel) = some .directory)
    (hend : p.Tidy ∨ t.look (placeOf cwd root ++ names) = some .directory) :
    t.destination cwd p = .ok (placeOf cwd root ++ names) := by
  rw [← hbelow.placeOf_eq]
  refine FileTree.destination_of_usable husable fun front part back hsplit => ?_
  rcases reach_of_trek hbelow hsplit with ⟨rest, hrest⟩ | ⟨rel, hrel, hreach, hlast⟩
  · rw [← Place.reach_filter]
    exact h _ rest hrest
  · rw [hreach]
    by_cases heq : rel = names
    · rcases hend with htidy | hdirectory
      · by_cases hnil : names = []
        · rw [heq, hnil, List.append_nil]
          exact h.directory
        · refine absurd (hlast heq) (getLast?_trek htidy ?_)
          rw [hbelow.moves]
          simp [hnil]
      · rwa [heq]
    · exact hway rel hrel heq

/-! ## Roots of grown trees -/

theorem Rooted.usable (h : Rooted base cwd root) : FileTree.Usable cwd root :=
  FileTree.usable_of_destination h.leads

/-- The way to the root leads through directories of every grown tree. -/
theorem Rooted.look (h : Rooted base cwd root) (hgrown : Grown base (placeOf cwd root) files way t)
    {front rest : List String} (hsplit : route cwd root = front ++ rest) :
    t.look (Place.reach front) = some .directory := by
  by_cases hbelow : placeOf cwd root <+: Place.reach front
  · rw [h.outward front rest hsplit hbelow]
    exact hgrown.look_place
  · rw [hgrown.outside _ hbelow]
    rcases look_of_destination h.leads hsplit with hlook | heq
    · exact hlook
    · -- At its end the way is at the root.
      exact absurd (heq ▸ List.prefix_refl _) hbelow

theorem Rooted.leadsIn (h : Rooted base cwd root)
    (hgrown : Grown base (placeOf cwd root) files way t) : Leads t cwd root :=
  fun _ _ hsplit => h.look hgrown hsplit

theorem Rooted.destination_eq_ok (h : Rooted base cwd root)
    (hgrown : Grown base (placeOf cwd root) files way t) (hbelow : p.Below root names)
    (husable : FileTree.Usable cwd p)
    (hway : ∀ rel, rel <+: names → rel ≠ names →
      t.look (placeOf cwd root ++ rel) = some .directory)
    (hend : p.Tidy ∨ t.look (placeOf cwd root ++ names) = some .directory) :
    t.destination cwd p = .ok (placeOf cwd root ++ names) :=
  (h.leadsIn hgrown).destination_eq_ok hbelow husable hway hend

/-- A usable path below the root leads nowhere, if a directory on the way is missing. -/
theorem Rooted.destination_eq_notFound (h : Rooted base cwd root)
    (hgrown : Grown base (placeOf cwd root) files way t) {last : String}
    (hbelow : p.Below root (names ++ [last])) (husable : FileTree.Usable cwd p) (htidy : p.Tidy)
    (hfile : ∀ rel, rel <+: names → files rel = none)
    (hmissing : t.look (placeOf cwd root ++ names) = none) :
    t.destination cwd p = .error .notFound := by
  refine FileTree.destination_of_missing husable (fun front part back hsplit bytes hlook => ?_) ?_
  · rcases reach_of_trek hbelow hsplit with ⟨rest, hrest⟩ | ⟨rel, hrel, hreach, hlast⟩
    · rw [← Place.reach_filter, h.look hgrown hrest] at hlook
      cases hlook
    · rw [hreach, hgrown.file] at hlook
      have hne : rel ≠ names ++ [last] := fun heq => by
        refine getLast?_trek htidy ?_ (hlast heq)
        rw [hbelow.moves]
        simp
      have hbefore := Grown.isPrefix_dropLast hrel hne
      rw [List.dropLast_concat] at hbefore
      rw [hfile rel hbefore] at hlook
      cases hlook
  · have hroute : route cwd p = (route cwd root ++ names) ++ last :: [] := by
      rw [route_below hbelow, List.append_assoc]
    obtain ⟨first, second, hsplit, hfirst, hsecond⟩ := List.filter_eq_append_iff.1 hroute
    obtain ⟨dots, back, rfl, hdots, -, -⟩ := List.filter_eq_cons_iff.1 hsecond
    refine ⟨first ++ dots, last, back, by rw [hsplit, List.append_assoc], ?_⟩
    have hnone : dots.filter (· ≠ ".") = [] := List.filter_eq_nil_iff.2 hdots
    rw [← Place.reach_filter, List.filter_append, hfirst, hnone, List.append_nil,
      reach_below hbelow cwd (List.prefix_append _ _)]
    exact hmissing

end WireSchema.Output
